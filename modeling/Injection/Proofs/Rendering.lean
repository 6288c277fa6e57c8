/-
  The text of a type tells the type.

  A text is put together from names, brackets and a few words, and types stand
  in types at any depth.  Read from its end, a text shows the outermost form of
  its type first, and the types within it end where a bracket or a blank stands
  before them; so a text can be taken apart in one way only.

  * `TypeExpr.WellFormed`: types whose names hold no character that separates,
    with wildcards only as arguments;
  * `flatMap_append_inj`: pieces that can be cut off one by one can be cut off
    all;
  * `TypeExpr.cuts`: a type is cut off the end of a text in one way;
  * `TypeExpr.WellFormed.render_eq_iff`: two well-formed types have the same text
    only if they are the same type.
-/
import Injection.Key.TypeExpr
import Mathlib.Data.List.Basic

namespace Injection

/-! ## Well-formed types -/

/-- The characters of names, none of which separates the parts of a text. -/
def isNameChar (c : Char) : Bool := c.isAlphanum || c == '_' || c == '$' || c == ':'

structure CleanName (name : String) : Prop where
  ne_empty : name ≠ ""
  chars : ∀ c ∈ name.toList, isNameChar c = true

namespace TypeExpr

mutual

inductive WellFormed : TypeExpr → Prop
  | plain {name} : CleanName name → WellFormed (.plain name)
  | array {element} : WellFormed element → WellFormed (.array element)
  | applied {name args} : CleanName name → (∀ arg ∈ args, Argument arg) →
    WellFormed (.applied none (.plain name) args)
  | member {owner name args} : WellFormed owner → CleanName name → (∀ arg ∈ args, Argument arg) →
    WellFormed (.applied (some owner) (.plain name) args)

/-- What may stand between the brackets of a type. -/
inductive Argument : TypeExpr → Prop
  | type {type} : WellFormed type → Argument type
  | wildcard {upper lower} : (∀ bound ∈ upper, WellFormed bound) →
    (∀ bound ∈ lower, WellFormed bound) → Argument (.wildcard upper lower)

end

end TypeExpr

/-! ## Pieces of texts -/

/-- What comes first from the end of a list is in the list. -/
theorem mem_of_reverse_eq_cons {α : Type} {as before : List α} {last : α}
    (h : as.reverse = last :: before) : last ∈ as := by
  rw [← List.mem_reverse, h]
  exact List.mem_cons_self

/-- Characters of one kind end where one of another kind follows. -/
theorem append_inj_of_forall {p : Char → Bool} {cs cs' rest rest' : List Char}
    (hcs : ∀ c ∈ cs, p c = true) (hcs' : ∀ c ∈ cs', p c = true)
    (hrest : ∀ c ∈ rest.head?, p c = false) (hrest' : ∀ c ∈ rest'.head?, p c = false)
    (h : cs ++ rest = cs' ++ rest') : cs = cs' ∧ rest = rest' := by
  have htake : ∀ {cs rest : List Char}, (∀ c ∈ cs, p c = true) → (∀ c ∈ rest.head?, p c = false) →
      (cs ++ rest).takeWhile p = cs := by
    intro cs rest hcs hrest
    rw [List.takeWhile_append_of_pos hcs]
    cases rest with
    | nil => simp
    | cons c rest => simp [hrest c rfl]
  have hsame : cs = cs' := by rw [← htake hcs hrest, h, htake hcs' hrest']
  subst hsame
  exact ⟨rfl, List.append_cancel_left h⟩

/-- Pieces that can be cut off one by one can be cut off all. -/
theorem flatMap_append_inj {α : Type} {f : α → List Char} {as bs : List α} {q q' : List Char}
    (hcut : ∀ a ∈ as, ∀ b ∈ bs, ∀ r r', f a ++ r = f b ++ r' → a = b ∧ r = r')
    (hq : ∀ b ∈ bs, ∀ r, q ≠ f b ++ r) (hq' : ∀ a ∈ as, ∀ r, q' ≠ f a ++ r)
    (h : as.flatMap f ++ q = bs.flatMap f ++ q') : as = bs ∧ q = q' := by
  induction as generalizing bs with
  | nil =>
    cases bs with
    | nil => exact ⟨rfl, h⟩
    | cons b bs =>
      rw [List.flatMap_cons, List.append_assoc] at h
      exact (hq b List.mem_cons_self _ h).elim
  | cons a as ih =>
    cases bs with
    | nil =>
      rw [List.flatMap_cons, List.append_assoc] at h
      exact (hq' a List.mem_cons_self _ h.symm).elim
    | cons b bs =>
      rw [List.flatMap_cons, List.flatMap_cons, List.append_assoc, List.append_assoc] at h
      obtain ⟨rfl, hrest⟩ := hcut a List.mem_cons_self b List.mem_cons_self _ _ h
      obtain ⟨rfl, hends⟩ := ih
        (fun a' ha' b' hb' => hcut a' (List.mem_cons_of_mem _ ha') b' (List.mem_cons_of_mem _ hb'))
        (fun b' hb' => hq b' (List.mem_cons_of_mem _ hb'))
        (fun a' ha' => hq' a' (List.mem_cons_of_mem _ ha')) hrest
      exact ⟨rfl, hends⟩

theorem toList_intercalate_cons (separator text : String) (texts : List String) :
    (separator.intercalate (text :: texts)).toList =
      text.toList ++ texts.flatMap fun text => separator.toList ++ text.toList := by
  rw [String.toList_intercalate]
  induction texts generalizing text with
  | nil => simp
  | cons next texts ih =>
    rw [List.map_cons, List.map_cons, List.intercalate_cons_cons, ← List.map_cons, ih]
    simp

namespace TypeExpr

/-! ## Texts from their end -/

/-- The text of a type, read from its end. -/
def back (type : TypeExpr) : List Char := type.render.toList.reverse

/-- The text of a list of arguments, read from its end. -/
def argumentsBack (args : List TypeExpr) : List Char :=
  (", ".intercalate (renderAll args)).toList.reverse

/-- The bounds of a wildcard, each with the word before it. -/
def leads (upper lower : List TypeExpr) : List (String × TypeExpr) :=
  introduced " extends " upper ++ introduced " super " lower
where
  introduced (word : String) : List TypeExpr → List (String × TypeExpr)
    | [] => []
    | bound :: bounds => (word, bound) :: bounds.map (" & ", ·)

theorem renderAll_eq_map (types : List TypeExpr) : renderAll types = types.map render := by
  induction types with
  | nil => rfl
  | cons type types ih => rw [renderAll, List.map_cons, ih]

theorem back_plain (name : String) : back (.plain name) = name.toList.reverse := by
  rw [back, render]

theorem back_array (element : TypeExpr) : back (.array element) = ']' :: '[' :: back element := by
  simp [back, render]

theorem back_applied (raw : TypeExpr) (args : List TypeExpr) :
    back (.applied none raw args) = '>' :: (argumentsBack args ++ '<' :: back raw) := by
  simp [back, render, argumentsBack]

theorem back_member (owner raw : TypeExpr) (args : List TypeExpr) :
    back (.applied (some owner) raw args) =
      '>' :: (argumentsBack args ++ '<' :: (back raw ++ '.' :: back owner)) := by
  simp [back, render, argumentsBack]

theorem argumentsBack_cons (arg : TypeExpr) (args : List TypeExpr) :
    argumentsBack (arg :: args) =
      (args.reverse.flatMap fun type => back type ++ [' ', ',']) ++ back arg := by
  rw [argumentsBack, renderAll, toList_intercalate_cons, List.reverse_append,
    List.reverse_flatMap, renderAll_eq_map, ← List.map_reverse, List.flatMap_map]
  simp [back]

theorem toList_bounds (word : String) (bounds : List TypeExpr) :
    (render.bounds word (renderAll bounds)).toList =
      (leads.introduced word bounds).flatMap fun lead => lead.1.toList ++ lead.2.render.toList := by
  cases bounds with
  | nil => rfl
  | cons bound bounds =>
    show (word ++ " & ".intercalate (bound.render :: renderAll bounds)).toList = _
    rw [String.toList_append, toList_intercalate_cons, renderAll_eq_map, leads.introduced,
      List.flatMap_cons, List.flatMap_map, List.flatMap_map, List.append_assoc]

theorem back_wildcard (upper lower : List TypeExpr) :
    back (.wildcard upper lower) =
      ((leads upper lower).reverse.flatMap fun lead => back lead.2 ++ lead.1.toList.reverse) ++
        ['?'] := by
  rw [back, render, String.toList_append, String.toList_append, toList_bounds, toList_bounds,
    leads, List.append_assoc, ← List.flatMap_append, List.reverse_append, List.reverse_flatMap]
  simp [back, Function.comp_def]

/-! ## Where a type ends -/

/-- What may stand before a type in a text, from its end: a bracket or a blank, if anything. -/
inductive Stop : List Char → Prop
  | nil : Stop []
  | bracket (rest) : Stop ('<' :: rest)
  | blank (rest) : Stop (' ' :: rest)

/-- What may stand before an argument: a bracket, or a comma and a blank, if anything. -/
inductive ArgumentStop : List Char → Prop
  | nil : ArgumentStop []
  | bracket (rest) : ArgumentStop ('<' :: rest)
  | comma (rest) : ArgumentStop (' ' :: ',' :: rest)

variable {s t : TypeExpr} {r r' : List Char}

theorem Stop.not_name (h : Stop r) : ∀ c ∈ r.head?, isNameChar c = false := by
  cases h <;> simp [isNameChar]

theorem ArgumentStop.stop (h : ArgumentStop r) : Stop r := by
  cases h with
  | nil => exact .nil
  | bracket rest => exact .bracket rest
  | comma rest => exact .blank _

end TypeExpr

theorem CleanName.back_ne {name : String} (h : CleanName name) {c : Char} {r rest : List Char}
    (hc : isNameChar c = false) : name.toList.reverse ++ r ≠ c :: rest := by
  intro heq
  cases hback : name.toList.reverse with
  | nil => exact h.ne_empty (by simpa using hback)
  | cons last before =>
    rw [hback] at heq
    have hlast : last ∈ name.toList := mem_of_reverse_eq_cons hback
    rw [← (List.cons.inj heq).1, h.chars last hlast] at hc
    cases hc

/-- A name ends where a character follows that is not of names. -/
theorem CleanName.back_inj {name name' : String} (h : CleanName name) (h' : CleanName name')
    {r r' : List Char} (hr : ∀ c ∈ r.head?, isNameChar c = false)
    (hr' : ∀ c ∈ r'.head?, isNameChar c = false)
    (heq : name.toList.reverse ++ r = name'.toList.reverse ++ r') : name = name' ∧ r = r' := by
  obtain ⟨hnames, hrest⟩ := append_inj_of_forall (p := isNameChar)
    (fun c hc => h.chars c (List.mem_reverse.1 hc))
    (fun c hc => h'.chars c (List.mem_reverse.1 hc)) hr hr' heq
  exact ⟨String.toList_inj.1 (List.reverse_injective hnames), hrest⟩

namespace TypeExpr

variable {s t : TypeExpr} {r r' : List Char}

/-- The last character of a well-formed type. -/
theorem WellFormed.back_start (h : t.WellFormed) :
    ∃ c rest, back t = c :: rest ∧ (isNameChar c = true ∨ c = ']' ∨ c = '>') := by
  cases h with
  | @plain name hname =>
    rw [back_plain]
    cases hback : name.toList.reverse with
    | nil => exact (hname.ne_empty (by simpa using hback)).elim
    | cons last before =>
      exact ⟨last, before, rfl, .inl (hname.chars last (mem_of_reverse_eq_cons hback))⟩
  | array => exact ⟨']', _, back_array _, by simp⟩
  | applied => exact ⟨'>', _, back_applied _ _, by simp⟩
  | member => exact ⟨'>', _, back_member _ _ _, by simp⟩

/-- No well-formed type ends with a mark or with what stands before a type. -/
theorem WellFormed.back_ne (h : t.WellFormed) {c : Char} {rest : List Char}
    (hc : c ∈ ['?', '<', ' ']) : back t ++ r ≠ c :: rest := by
  obtain ⟨last, before, hback, hlast⟩ := h.back_start
  rw [hback]
  rintro heq
  obtain rfl : last = c := (List.cons.inj heq).1
  simp only [List.mem_cons, List.not_mem_nil, or_false] at hc
  rcases hc with rfl | rfl | rfl <;> simp [isNameChar] at hlast

/-! ## Bounds of wildcards -/

theorem mem_introduced {word : String} {bounds : List TypeExpr} {lead : String × TypeExpr}
    (h : lead ∈ leads.introduced word bounds) :
    (lead.1 = word ∨ lead.1 = " & ") ∧ lead.2 ∈ bounds := by
  cases bounds with
  | nil => cases h
  | cons bound bounds =>
    rcases List.mem_cons.1 h with rfl | h
    · exact ⟨.inl rfl, List.mem_cons_self⟩
    · obtain ⟨other, hother, rfl⟩ := List.mem_map.1 h
      exact ⟨.inr rfl, List.mem_cons_of_mem _ hother⟩

/-- Before each bound stands one of three words. -/
theorem mem_leads {upper lower : List TypeExpr} {lead : String × TypeExpr}
    (h : lead ∈ leads upper lower) :
    lead.1 ∈ [" extends ", " super ", " & "] ∧ (lead.2 ∈ upper ∨ lead.2 ∈ lower) := by
  rcases List.mem_append.1 h with h | h
  · obtain ⟨hword, hbound⟩ := mem_introduced h
    exact ⟨by rcases hword with hword | hword <;> simp [hword], .inl hbound⟩
  · obtain ⟨hword, hbound⟩ := mem_introduced h
    exact ⟨by rcases hword with hword | hword <;> simp [hword], .inr hbound⟩

theorem map_introduced (word : String) (bounds : List TypeExpr) :
    (leads.introduced word bounds).map (·.2) = bounds := by
  cases bounds with
  | nil => rfl
  | cons bound bounds => simp [leads.introduced, Function.comp_def]

/-- The lower bounds begin at the word that introduces them. -/
theorem leads_inj {upper lower upper' lower' : List TypeExpr}
    (h : leads upper lower = leads upper' lower') : upper = upper' ∧ lower = lower' := by
  have htake : ∀ upper lower : List TypeExpr,
      (leads upper lower).takeWhile (·.1 != " super ") = leads.introduced " extends " upper := by
    intro upper lower
    have hupper : ∀ lead ∈ leads.introduced " extends " upper, (lead.1 != " super ") = true := by
      intro lead hlead
      rcases (mem_introduced hlead).1 with hword | hword <;> rw [hword] <;> decide
    rw [leads, List.takeWhile_append_of_pos hupper]
    cases lower <;> simp [leads.introduced]
  have hupper : leads.introduced " extends " upper = leads.introduced " extends " upper' := by
    rw [← htake upper lower, h, htake]
  have hlower : leads.introduced " super " lower = leads.introduced " super " lower' := by
    rw [leads, leads, hupper] at h
    exact List.append_cancel_left h
  have hbounds := congrArg (List.map Prod.snd) hupper
  have hbounds' := congrArg (List.map Prod.snd) hlower
  simp only [map_introduced] at hbounds hbounds'
  exact ⟨hbounds, hbounds'⟩

/-- The three words can be told apart from their ends. -/
theorem word_inj {word word' : String} (h : word ∈ [" extends ", " super ", " & "])
    (h' : word' ∈ [" extends ", " super ", " & "])
    (heq : word.toList.reverse ++ r = word'.toList.reverse ++ r') : word = word' ∧ r = r' := by
  simp only [List.mem_cons, List.not_mem_nil, or_false] at h h'
  rcases h with rfl | rfl | rfl <;> rcases h' with rfl | rfl | rfl <;> simp_all

/-- Each of the words ends with a blank, and none with a comma. -/
theorem stop_word {word : String} (h : word ∈ [" extends ", " super ", " & "])
    (rest : List Char) : Stop (word.toList.reverse ++ rest) ∧
      ¬ ArgumentStop (word.toList.reverse ++ rest) := by
  simp only [List.mem_cons, List.not_mem_nil, or_false] at h
  rcases h with rfl | rfl | rfl <;> exact ⟨.blank _, nofun⟩

/-! ## Cutting a type off -/

/-- A type is cut off the end of a text in one way, both as a type of its own and as an argument. -/
structure Cuts (s : TypeExpr) : Prop where
  type : s.WellFormed → ∀ {t r r'}, t.WellFormed → Stop r → Stop r' →
    back s ++ r = back t ++ r' → s = t ∧ r = r'
  argument : s.Argument → ∀ {t r r'}, t.Argument → ArgumentStop r → ArgumentStop r' →
    back s ++ r = back t ++ r' → s = t ∧ r = r'

/-- A wildcard does not end like a type: before its last bound stands a word. -/
theorem back_wildcard_ne {upper lower : List TypeExpr} (ht : t.WellFormed) (hr' : ArgumentStop r')
    (hcut : ∀ bound, bound ∈ upper ∨ bound ∈ lower → ∀ R, Stop R →
      back bound ++ R = back t ++ r' → R = r') :
    back (.wildcard upper lower) ++ r ≠ back t ++ r' := by
  intro h
  rw [back_wildcard, List.append_assoc] at h
  cases hleads : (leads upper lower).reverse with
  | nil =>
    rw [hleads] at h
    exact ht.back_ne (by simp) h.symm
  | cons last before =>
    have hlast : last ∈ leads upper lower := mem_of_reverse_eq_cons hleads
    obtain ⟨hword, hbound⟩ := mem_leads hlast
    rw [hleads, List.flatMap_cons, List.append_assoc, List.append_assoc] at h
    obtain ⟨hstop, hnot⟩ := stop_word hword _
    rw [hcut last.2 hbound _ hstop h] at hnot
    exact hnot hr'

/-- For a type that is no wildcard, it is enough to cut it off as a type of its own. -/
theorem Cuts.of_type (hwild : ∀ upper lower, s ≠ .wildcard upper lower)
    (h : s.WellFormed → ∀ {t r r'}, t.WellFormed → Stop r → Stop r' →
      back s ++ r = back t ++ r' → s = t ∧ r = r') : Cuts s where
  type := h
  argument hs t r r' ht hr hr' heq := by
    cases hs with
    | wildcard => exact (hwild _ _ rfl).elim
    | type hs =>
      cases ht with
      | type ht => exact h hs ht hr.stop hr'.stop heq
      | wildcard hupper hlower =>
        refine (back_wildcard_ne hs hr (fun bound hbound R hR hback => ?_) heq.symm).elim
        have hwf := hbound.elim (hupper bound) (hlower bound)
        exact (h hs hwf hr.stop hR hback.symm).2.symm

theorem cuts_plain (name : String) : Cuts (.plain name) := by
  refine .of_type nofun fun hs t r r' ht hr hr' h => ?_
  cases hs with
  | plain hname =>
    rw [back_plain] at h
    cases ht with
    | plain hname' =>
      rw [back_plain] at h
      obtain ⟨rfl, hrest⟩ := hname.back_inj hname' hr.not_name hr'.not_name h
      exact ⟨rfl, hrest⟩
    | array =>
      rw [back_array] at h
      exact (hname.back_ne (by decide) h).elim
    | applied =>
      rw [back_applied] at h
      exact (hname.back_ne (by decide) h).elim
    | member =>
      rw [back_member] at h
      exact (hname.back_ne (by decide) h).elim

theorem cuts_array {element : TypeExpr} (hcuts : Cuts element) : Cuts (.array element) := by
  refine .of_type nofun fun hs t r r' ht hr hr' h => ?_
  cases hs with
  | array helement =>
    rw [back_array] at h
    cases ht with
    | plain hname =>
      rw [back_plain] at h
      exact (hname.back_ne (by decide) h.symm).elim
    | array helement' =>
      rw [back_array] at h
      simp only [List.cons_append, List.cons.injEq, true_and] at h
      obtain ⟨rfl, hrest⟩ := hcuts.type helement helement' hr hr' h
      exact ⟨rfl, hrest⟩
    | applied =>
      rw [back_applied] at h
      simp at h
    | member =>
      rw [back_member] at h
      simp at h

theorem Argument.back_ne (h : t.Argument) {rest : List Char} : back t ++ r ≠ '<' :: rest := by
  cases h with
  | type h => exact h.back_ne (by simp)
  | @wildcard upper lower hupper hlower =>
    rw [back_wildcard, List.append_assoc]
    cases hleads : (leads upper lower).reverse with
    | nil => simp
    | cons last before =>
      have hlast : last ∈ leads upper lower := mem_of_reverse_eq_cons hleads
      rw [List.flatMap_cons, List.append_assoc, List.append_assoc]
      exact ((mem_leads hlast).2.elim (hupper _) (hlower _)).back_ne (by simp)

/-- The last argument ends a text of arguments. -/
theorem argumentsBack_start (arg : TypeExpr) (args : List TypeExpr) :
    ∃ last ∈ arg :: args, ∃ rest, argumentsBack (arg :: args) = back last ++ rest := by
  rw [argumentsBack_cons]
  cases hargs : args.reverse with
  | nil => exact ⟨arg, List.mem_cons_self, [], by simp⟩
  | cons last before =>
    have hlast : last ∈ args := mem_of_reverse_eq_cons hargs
    rw [List.flatMap_cons, List.append_assoc, List.append_assoc]
    exact ⟨last, List.mem_cons_of_mem _ hlast, _, rfl⟩

/-- A list of arguments is cut off in one way, down to the bracket before it. -/
theorem argumentsBack_inj {args args' : List TypeExpr} (hcuts : ∀ arg ∈ args, Cuts arg)
    (hargs : ∀ arg ∈ args, arg.Argument) (hargs' : ∀ arg ∈ args', arg.Argument)
    (h : argumentsBack args ++ '<' :: r = argumentsBack args' ++ '<' :: r') :
    args = args' ∧ r = r' := by
  cases args with
  | nil =>
    cases args' with
    | nil => exact ⟨rfl, (List.cons.inj h).2⟩
    | cons arg' args' =>
      obtain ⟨last, hlast, rest, hback⟩ := argumentsBack_start arg' args'
      rw [hback, List.append_assoc] at h
      exact ((hargs' last hlast).back_ne h.symm).elim
  | cons arg args =>
    cases args' with
    | nil =>
      obtain ⟨last, hlast, rest, hback⟩ := argumentsBack_start arg args
      rw [hback, List.append_assoc] at h
      exact ((hargs last hlast).back_ne h).elim
    | cons arg' args' =>
      obtain ⟨hcut, hcuts⟩ := List.forall_mem_cons.1 hcuts
      obtain ⟨harg, hargs⟩ := List.forall_mem_cons.1 hargs
      obtain ⟨harg', hargs'⟩ := List.forall_mem_cons.1 hargs'
      rw [argumentsBack_cons, argumentsBack_cons, List.append_assoc, List.append_assoc] at h
      have hothers : ∀ a ∈ args.reverse, ∀ b ∈ args'.reverse, ∀ R R',
          (back a ++ [' ', ',']) ++ R = (back b ++ [' ', ',']) ++ R' → a = b ∧ R = R' := by
        intro a ha b hb R R' heq
        rw [List.append_assoc, List.append_assoc] at heq
        obtain ⟨hsame, hends⟩ := (hcuts a (List.mem_reverse.1 ha)).argument
          (hargs a (List.mem_reverse.1 ha)) (hargs' b (List.mem_reverse.1 hb)) (.comma _) (.comma _)
          heq
        exact ⟨hsame, (List.cons.inj (List.cons.inj hends).2).2⟩
      -- the first argument stands behind a bracket, and every other one behind a comma
      have hfirst : ∀ b ∈ args'.reverse, ∀ R,
          back arg ++ '<' :: r ≠ (back b ++ [' ', ',']) ++ R := by
        intro b hb R heq
        rw [List.append_assoc] at heq
        obtain ⟨-, hends⟩ := hcut.argument harg (hargs' b (List.mem_reverse.1 hb)) (.bracket _)
          (.comma _) heq
        simp at hends
      have hfirst' : ∀ a ∈ args.reverse, ∀ R,
          back arg' ++ '<' :: r' ≠ (back a ++ [' ', ',']) ++ R := by
        intro a ha R heq
        rw [List.append_assoc] at heq
        obtain ⟨-, hends⟩ := (hcuts a (List.mem_reverse.1 ha)).argument
          (hargs a (List.mem_reverse.1 ha)) harg' (.comma _) (.bracket _) heq.symm
        simp at hends
      obtain ⟨hrest, hfirsts⟩ := flatMap_append_inj hothers hfirst hfirst' h
      obtain ⟨rfl, hends⟩ := hcut.argument harg harg' (.bracket _) (.bracket _) hfirsts
      exact ⟨by rw [List.reverse_injective hrest], (List.cons.inj hends).2⟩

theorem cuts_applied {raw : TypeExpr} {args : List TypeExpr} (hcuts : ∀ arg ∈ args, Cuts arg) :
    Cuts (.applied none raw args) := by
  refine .of_type nofun fun hs t r r' ht hr hr' h => ?_
  cases hs with
  | applied hname hargs =>
    rw [back_applied, back_plain] at h
    cases ht with
    | plain hname' =>
      rw [back_plain] at h
      exact (hname'.back_ne (by decide) h.symm).elim
    | array =>
      rw [back_array] at h
      simp at h
    | applied hname' hargs' =>
      rw [back_applied, back_plain] at h
      simp only [List.cons_append, List.append_assoc, List.cons.injEq, true_and] at h
      obtain ⟨rfl, hnames⟩ := argumentsBack_inj hcuts hargs hargs' h
      obtain ⟨rfl, hrest⟩ := hname.back_inj hname' hr.not_name hr'.not_name hnames
      exact ⟨rfl, hrest⟩
    | member howner' hname' hargs' =>
      rw [back_member, back_plain] at h
      simp only [List.cons_append, List.append_assoc, List.cons.injEq, true_and] at h
      obtain ⟨-, hnames⟩ := argumentsBack_inj hcuts hargs hargs' h
      obtain ⟨-, rfl⟩ := hname.back_inj hname' hr.not_name (by simp [isNameChar]) hnames
      cases hr

theorem cuts_member {owner raw : TypeExpr} {args : List TypeExpr} (hcut : Cuts owner)
    (hcuts : ∀ arg ∈ args, Cuts arg) : Cuts (.applied (some owner) raw args) := by
  refine .of_type nofun fun hs t r r' ht hr hr' h => ?_
  cases hs with
  | member howner hname hargs =>
    rw [back_member, back_plain] at h
    cases ht with
    | plain hname' =>
      rw [back_plain] at h
      exact (hname'.back_ne (by decide) h.symm).elim
    | array =>
      rw [back_array] at h
      simp at h
    | applied hname' hargs' =>
      rw [back_applied, back_plain] at h
      simp only [List.cons_append, List.append_assoc, List.cons.injEq, true_and] at h
      obtain ⟨-, hnames⟩ := argumentsBack_inj hcuts hargs hargs' h
      obtain ⟨-, rfl⟩ := hname.back_inj hname' (by simp [isNameChar]) hr'.not_name hnames
      cases hr'
    | member howner' hname' hargs' =>
      rw [back_member, back_plain] at h
      simp only [List.cons_append, List.append_assoc, List.cons.injEq, true_and] at h
      obtain ⟨rfl, hnames⟩ := argumentsBack_inj hcuts hargs hargs' h
      obtain ⟨rfl, howners⟩ := hname.back_inj hname' (by simp [isNameChar]) (by simp [isNameChar])
        hnames
      obtain ⟨rfl, hrest⟩ := hcut.type howner howner' hr hr' (List.cons.inj howners).2
      exact ⟨rfl, hrest⟩

theorem cuts_wildcard {upper lower : List TypeExpr} (hcuts : ∀ bound ∈ upper, Cuts bound)
    (hcuts' : ∀ bound ∈ lower, Cuts bound) : Cuts (.wildcard upper lower) where
  type := nofun
  argument hs t r r' ht hr hr' h := by
    cases hs with
    | type hs => cases hs
    | wildcard hupper hlower =>
      have hbound : ∀ bound, bound ∈ upper ∨ bound ∈ lower → Cuts bound ∧ bound.WellFormed :=
        fun bound hbound => hbound.elim (fun hmem => ⟨hcuts bound hmem, hupper bound hmem⟩)
          fun hmem => ⟨hcuts' bound hmem, hlower bound hmem⟩
      cases ht with
      | type ht =>
        refine (back_wildcard_ne ht hr' (fun bound hmem R hR hback => ?_) h).elim
        obtain ⟨hcut, hwf⟩ := hbound bound hmem
        exact (hcut.type hwf ht hR hr'.stop hback).2
      | @wildcard upper' lower' hupper' hlower' =>
        have hbound' : ∀ bound, bound ∈ upper' ∨ bound ∈ lower' → bound.WellFormed :=
          fun bound hbound => hbound.elim (hupper' bound) (hlower' bound)
        rw [back_wildcard, back_wildcard, List.append_assoc, List.append_assoc] at h
        have hcut : ∀ a ∈ (leads upper lower).reverse, ∀ b ∈ (leads upper' lower').reverse, ∀ R R',
            (back a.2 ++ a.1.toList.reverse) ++ R = (back b.2 ++ b.1.toList.reverse) ++ R' →
              a = b ∧ R = R' := by
          intro a ha b hb R R' heq
          obtain ⟨hword, hmem⟩ := mem_leads (List.mem_reverse.1 ha)
          obtain ⟨hword', hmem'⟩ := mem_leads (List.mem_reverse.1 hb)
          obtain ⟨hcut, hwf⟩ := hbound a.2 hmem
          rw [List.append_assoc, List.append_assoc] at heq
          obtain ⟨htypes, hrest⟩ := hcut.type hwf (hbound' b.2 hmem') (stop_word hword _).1
            (stop_word hword' _).1 heq
          obtain ⟨hwords, hrest⟩ := word_inj hword hword' hrest
          exact ⟨Prod.ext hwords htypes, hrest⟩
        -- the mark of a wildcard is no end of a bound
        have hmark : ∀ b ∈ (leads upper' lower').reverse, ∀ R,
            ['?'] ++ r ≠ (back b.2 ++ b.1.toList.reverse) ++ R := by
          intro b hb R heq
          rw [List.append_assoc] at heq
          exact (hbound' b.2 (mem_leads (List.mem_reverse.1 hb)).2).back_ne (by simp) heq.symm
        have hmark' : ∀ a ∈ (leads upper lower).reverse, ∀ R,
            ['?'] ++ r' ≠ (back a.2 ++ a.1.toList.reverse) ++ R := by
          intro a ha R heq
          rw [List.append_assoc] at heq
          exact (hbound a.2 (mem_leads (List.mem_reverse.1 ha)).2).2.back_ne (by simp) heq.symm
        obtain ⟨hleads, hends⟩ := flatMap_append_inj hcut hmark hmark' h
        obtain ⟨rfl, rfl⟩ := leads_inj (List.reverse_injective hleads)
        exact ⟨rfl, (List.cons.inj hends).2⟩

mutual

theorem cuts : ∀ s : TypeExpr, Cuts s
  | .plain name => cuts_plain name
  | .applied none _ args => cuts_applied (cuts_all args)
  | .applied (some owner) _ args => cuts_member (cuts owner) (cuts_all args)
  | .array element => cuts_array (cuts element)
  | .wildcard upper lower => cuts_wildcard (cuts_all upper) (cuts_all lower)
  | .var _ => .of_type nofun nofun

theorem cuts_all : ∀ types : List TypeExpr, ∀ type ∈ types, Cuts type
  | [] => nofun
  | type :: types => List.forall_mem_cons.2 ⟨cuts type, cuts_all types⟩

end

/-! ## Results -/

/-- Two well-formed types have the same text only if they are the same type. -/
theorem WellFormed.render_eq_iff (hs : s.WellFormed) (ht : t.WellFormed) :
    s.render = t.render ↔ s = t := by
  constructor
  · intro h
    have hback : back s ++ [] = back t ++ [] := by rw [back, back, h]
    exact ((cuts s).type hs ht .nil .nil hback).1
  · exact congrArg render

/-! ## Two entries of a map -/

namespace Entries

theorem clean {name : String} (hname : name ≠ "") (h : name.toList.all isNameChar = true) :
    CleanName name :=
  ⟨hname, List.all_eq_true.1 h⟩

def arrays : TypeExpr := .array (.plain "K")

def empty : TypeExpr := .applied none (.plain "V") []

def entry (value : TypeExpr) : TypeExpr :=
  .applied (some (.applied none (.plain "Map") [arrays])) (.plain "Entry") [.wildcard [] [], value]

theorem arrays_wellFormed : arrays.WellFormed :=
  .array (.plain (clean (by decide) (by decide)))

theorem empty_wellFormed : empty.WellFormed :=
  .applied (clean (by decide) (by decide)) nofun

theorem entry_wellFormed {value : TypeExpr} (h : value.Argument) : (entry value).WellFormed := by
  have hmap : CleanName "Map" := clean (by decide) (by decide)
  have hentry : CleanName "Entry" := clean (by decide) (by decide)
  refine .member (.applied hmap fun arg harg => ?_) hentry fun arg harg => ?_
  · obtain rfl := List.mem_singleton.1 harg
    exact .type arrays_wellFormed
  · rcases List.mem_cons.1 harg with rfl | harg
    · exact .wildcard nofun nofun
    · obtain rfl := List.mem_singleton.1 harg
      exact h

/-- `Map<K[]>.Entry<?, ? extends K[] & V<>>` and `Map<K[]>.Entry<?, ? extends K[] super V<>>` have
    the same names in the same places, and are told apart all the same. -/
theorem entries_differ :
    (entry (.wildcard [arrays, empty] [])).WellFormed ∧
      (entry (.wildcard [arrays] [empty])).WellFormed ∧
      (entry (.wildcard [arrays, empty] [])).render ≠
        (entry (.wildcard [arrays] [empty])).render := by
  have hboth : (entry (.wildcard [arrays, empty] [])).WellFormed :=
    entry_wellFormed (.wildcard (by simp [arrays_wellFormed, empty_wellFormed]) nofun)
  have hmixed : (entry (.wildcard [arrays] [empty])).WellFormed :=
    entry_wellFormed (.wildcard (by simp [arrays_wellFormed]) (by simp [empty_wellFormed]))
  exact ⟨hboth, hmixed, fun h => absurd ((hboth.render_eq_iff hmixed).1 h) (by decide)⟩

end Entries

end TypeExpr

end Injection
