/-
  Which values of variables are accepted, and what they give.

  * `Text.Trims`: a text without the blanks around it;
  * `FlagText` and `CountText` say which texts stand for a flag and for a count,
    `readFlag_eq_some_iff` and `readCount_eq_some_iff` that these are read;
  * `Environment.Gives` and `Environment.Refuses`: what a variable is good for,
    by the texts that stand for its values;
  * `ReportOptions.ofEnvironment_follows`: the options of an environment are
    those that two variables give, or the first of them is refused.
-/
import Injection.Report.Environment
import Mathlib.Data.List.DropRight
import Mathlib.Data.List.Forall2
import Mathlib.Data.List.Induction
import Mathlib.Data.List.TakeWhile
import Mathlib.Data.Nat.Digits.Defs

namespace Injection

namespace Text

/-! ## Blanks around a text -/

/-- `core` stands between the blanks around a text. -/
structure Trims (cs core : List Char) : Prop where
  around : ∃ before after, cs = before ++ core ++ after ∧ ∀ c ∈ before ++ after, isBlank c = true
  first : ∀ c ∈ core.head?, isBlank c = false
  last : ∀ c ∈ core.getLast?, isBlank c = false

theorem trimBlanks_eq (cs : List Char) :
    trimBlanks cs = (cs.dropWhile isBlank).rdropWhile isBlank := rfl

/-- Blanks go from both ends of a text, and nothing else does. -/
theorem trims_trimBlanks (cs : List Char) : Trims cs (trimBlanks cs) := by
  have hsplit : cs.dropWhile isBlank = trimBlanks cs ++ (cs.dropWhile isBlank).rtakeWhile isBlank :=
    List.rdropWhile_append_rtakeWhile.symm
  refine ⟨⟨cs.takeWhile isBlank, (cs.dropWhile isBlank).rtakeWhile isBlank, ?_, ?_⟩, ?_, ?_⟩
  · rw [List.append_assoc, ← hsplit, List.takeWhile_append_dropWhile]
  · intro c hc
    rcases List.mem_append.1 hc with hc | hc
    · exact List.mem_takeWhile_imp hc
    · exact List.mem_rtakeWhile_imp hc
  · intro c hc
    -- the first character left is the first one of the text that is not blank
    have hfirst : (cs.dropWhile isBlank).head? = some c := by
      rw [hsplit, List.head?_append, Option.mem_def.1 hc, Option.some_or]
    have hnot := List.head?_dropWhile_not isBlank cs
    rw [hfirst] at hnot
    exact hnot
  · intro c hc
    rw [trimBlanks_eq] at hc
    have hne : (cs.dropWhile isBlank).rdropWhile isBlank ≠ [] := by
      intro hnil
      rw [hnil] at hc
      cases hc
    have hlast := List.rdropWhile_last_not isBlank (cs.dropWhile isBlank) hne
    rw [(List.getLast_eq_iff_getLast?_eq_some hne).2 hc] at hlast
    simpa using hlast

/-- There is one way only to take the blanks away. -/
theorem Trims.trimBlanks_eq {cs core : List Char} (h : Trims cs core) : trimBlanks cs = core := by
  obtain ⟨before, after, rfl, hblank⟩ := h.around
  have hbefore : ∀ c ∈ before, isBlank c = true := fun c hc =>
    hblank c (List.mem_append_left after hc)
  have hafter : ∀ c ∈ after, isBlank c = true := fun c hc =>
    hblank c (List.mem_append_right before hc)
  have hcore : core.rdropWhile isBlank = core :=
    List.rdropWhile_eq_self_iff.2 fun hne => by
      simpa using h.last _ (List.getLast?_eq_some_getLast hne)
  rw [Text.trimBlanks_eq, List.append_assoc, List.dropWhile_append_of_pos hbefore]
  cases core with
  | nil =>
    rw [List.nil_append, List.dropWhile_eq_nil_iff.2 hafter]
    rfl
  | cons c core =>
    have hfirst : isBlank c = false := h.first c rfl
    rw [List.cons_append, List.dropWhile_cons_of_neg (by simpa using hfirst), ← List.cons_append]
    rw [List.rdropWhile, List.reverse_append,
      List.dropWhile_append_of_pos (by simpa using hafter)]
    exact hcore

/-! ## Letters of either case -/

/-- Two characters are the same but for the case of an ASCII letter. -/
def SameLetter (c d : Char) : Prop :=
  c = d ∨ (c.isUpper = true ∧ d.toNat = c.toNat + 32) ∨
    (d.isUpper = true ∧ c.toNat = d.toNat + 32)

theorem isUpper_iff {c : Char} : c.isUpper = true ↔ 65 ≤ c.toNat ∧ c.toNat ≤ 90 :=
  decide_eq_true_iff

theorem toNat_toLower (c : Char) :
    c.toLower.toNat = if 65 ≤ c.toNat ∧ c.toNat ≤ 90 then c.toNat + 32 else c.toNat := by
  have hupper : (c.val ≥ 'A'.val ∧ c.val ≤ 'Z'.val) ↔ 65 ≤ c.toNat ∧ c.toNat ≤ 90 := Iff.rfl
  unfold Char.toLower
  split
  · next h =>
    have hadd : ('a'.val - 'A'.val).toNat = 32 := rfl
    have hval : c.val.toNat = c.toNat := rfl
    have hbounds := hupper.1 h
    rw [if_pos hbounds, ← Char.toNat_val, UInt32.toNat_add, hadd]
    exact Nat.mod_eq_of_lt (by omega)
  · next h => rw [if_neg (mt hupper.2 h)]

theorem toLower_eq_toLower_iff {c d : Char} : c.toLower = d.toLower ↔ SameLetter c d := by
  rw [SameLetter, ← Char.toNat_inj, ← Char.toNat_inj, toNat_toLower, toNat_toLower, isUpper_iff,
    isUpper_iff]
  split <;> split <;> omega

/-- Two texts are the same without regard to the case of ASCII letters. -/
def SameWord : List Char → List Char → Prop := List.Forall₂ SameLetter

theorem map_toLower_eq_iff {cs ds : List Char} :
    cs.map Char.toLower = ds.map Char.toLower ↔ SameWord cs ds := by
  rw [← List.forall₂_eq_eq_eq, List.forall₂_map_left_iff, List.forall₂_map_right_iff, SameWord]
  simp only [toLower_eq_toLower_iff]

/-! ## Numbers -/

/-- The decimal digits of a number, which may start with zeros. -/
def Denotes (cs : List Char) (n : Nat) : Prop :=
  ∃ digits : List Nat, digits ≠ [] ∧ (∀ d ∈ digits, d < 10) ∧ cs = digits.map Nat.digitChar ∧
    n = Nat.ofDigits 10 digits.reverse

theorem exists_digitChar_eq {c : Char} (h : c.isDigit = true) : ∃ d < 10, Nat.digitChar d = c := by
  have hbounds : 48 ≤ c.toNat ∧ c.toNat ≤ 57 := by
    simpa [Char.isDigit, UInt32.le_iff_toNat_le] using h
  have hlt : c.toNat - 48 < 10 := by omega
  refine ⟨c.toNat - 48, hlt, Char.toNat_inj.1 ?_⟩
  rw [Nat.toNat_digitChar_of_lt_ten hlt]
  omega

theorem exists_digits {cs : List Char} (h : ∀ c ∈ cs, c.isDigit = true) :
    ∃ digits : List Nat, (∀ d ∈ digits, d < 10) ∧ cs = digits.map Nat.digitChar := by
  induction cs with
  | nil => exact ⟨[], by simp, rfl⟩
  | cons c cs ih =>
    obtain ⟨d, hd, rfl⟩ := exists_digitChar_eq (h c List.mem_cons_self)
    obtain ⟨digits, hdigits, rfl⟩ := ih fun c' hc' => h c' (List.mem_cons_of_mem _ hc')
    exact ⟨d :: digits, by simpa using ⟨hd, hdigits⟩, rfl⟩

/-- The value of a text of decimal digits. -/
def decimal (cs : List Char) : Nat := cs.foldl (fun n c => 10 * n + (c.toNat - '0'.toNat)) 0

theorem decimal_map {digits : List Nat} (h : ∀ d ∈ digits, d < 10) :
    decimal (digits.map Nat.digitChar) = Nat.ofDigits 10 digits.reverse := by
  induction digits using List.reverseRecOn with
  | nil => rfl
  | append_singleton digits d ih =>
    have hd : d.digitChar.toNat - '0'.toNat = d := by
      rw [Nat.toNat_digitChar_of_lt_ten (h d (by simp))]
      exact Nat.add_sub_cancel_left 48 d
    have hdigits := ih fun d' hd' => h d' (List.mem_append_left _ hd')
    rw [decimal] at hdigits ⊢
    rw [List.map_append, List.foldl_append, hdigits, List.reverse_concat, Nat.ofDigits_cons,
      List.map_singleton, List.foldl_cons, List.foldl_nil, hd, Nat.add_comm]

theorem denotes_iff {cs : List Char} {n : Nat} :
    Denotes cs n ↔ cs ≠ [] ∧ (∀ c ∈ cs, c.isDigit = true) ∧ decimal cs = n := by
  constructor
  · rintro ⟨digits, hne, hlt, rfl, rfl⟩
    refine ⟨by simpa using hne, fun c hc => ?_, decimal_map hlt⟩
    obtain ⟨d, hd, rfl⟩ := List.mem_map.1 hc
    simpa [Nat.isDigit_digitChar] using hlt d hd
  · rintro ⟨hne, hdigit, rfl⟩
    obtain ⟨digits, hlt, rfl⟩ := exists_digits hdigit
    exact ⟨digits, by simpa using hne, hlt, rfl, decimal_map hlt⟩

end Text

/-! ## Flags and counts -/

/-- The words for a flag. -/
def flagWords : Bool → List String
  | true => ["true", "1", "yes", "on"]
  | false => ["false", "0", "no", "off"]

/-- A text stands for a flag: one of its words, in letters of either case and with blanks around. -/
def FlagText (text : String) (flag : Bool) : Prop :=
  ∃ core, Text.Trims text.toList core ∧ ∃ word ∈ flagWords flag, Text.SameWord core word.toList

/-- A text stands for a count: decimal digits of a number below `2 ^ 64`, perhaps after a plus sign,
    and with blanks around. -/
def CountText (text : String) (count : Nat) : Prop :=
  ∃ core digits, Text.Trims text.toList core ∧ (core = digits ∨ core = '+' :: digits) ∧
    Text.Denotes digits count ∧ count < 2 ^ 64

theorem readDigits_eq_some_iff {cs : List Char} {n : Nat} :
    readDigits cs = some n ↔ Text.Denotes cs n ∧ n < 2 ^ 64 := by
  have hlimit : Nat.pow 2 64 = 2 ^ 64 := rfl
  rw [Text.denotes_iff, readDigits, hlimit]
  split
  · next hbad =>
    rw [Bool.or_eq_true, List.isEmpty_iff, Bool.not_eq_true', List.all_eq_false] at hbad
    constructor
    · intro h
      cases h
    · rintro ⟨⟨hne, hdigit, -⟩, -⟩
      rcases hbad with hnil | ⟨c, hc, hnot⟩
      · exact absurd hnil hne
      · exact absurd (hdigit c hc) hnot
  · next hgood =>
    rw [Bool.or_eq_true, List.isEmpty_iff, Bool.not_eq_true', List.all_eq_false, not_or] at hgood
    obtain ⟨hne, hall⟩ := hgood
    have hdigit : ∀ c ∈ cs, c.isDigit = true := fun c hc =>
      Decidable.not_not.1 fun hnot => hall ⟨c, hc, hnot⟩
    show (if Text.decimal cs < 2 ^ 64 then some (Text.decimal cs) else none) = some n ↔ _
    constructor
    · intro h
      split at h
      · next hfits =>
        obtain rfl := Option.some.inj h
        exact ⟨⟨hne, hdigit, rfl⟩, hfits⟩
      · cases h
    · rintro ⟨⟨-, -, rfl⟩, hfits⟩
      rw [if_pos hfits]

theorem readFlag_eq_some_iff {text : String} {flag : Bool} :
    readFlag text = some flag ↔ FlagText text flag := by
  -- the words are in lower case themselves
  have hlower : ∀ {word : String}, word ∈ flagWords flag →
      word.toList.map Char.toLower = word.toList := by
    cases flag <;> decide
  have hmem : readFlag text = some flag ↔
      String.ofList ((valueChars text).map Char.toLower) ∈ flagWords flag := by
    unfold readFlag
    split <;> cases flag <;> simp_all [flagWords]
  rw [hmem, FlagText]
  constructor
  · intro hword
    refine ⟨valueChars text, Text.trims_trimBlanks _, _, hword, ?_⟩
    rw [← Text.map_toLower_eq_iff, hlower hword, String.toList_ofList]
  · rintro ⟨core, hcore, word, hword, hsame⟩
    obtain rfl := hcore.trimBlanks_eq
    rw [← Text.map_toLower_eq_iff, hlower hword] at hsame
    rw [valueChars, hsame, String.ofList_toList]
    exact hword

theorem readCount_eq_some_iff {text : String} {count : Nat} :
    readCount text = some count ↔ CountText text count := by
  have hcount : readCount text = some count ↔ ∃ digits,
      (valueChars text = digits ∨ valueChars text = '+' :: digits) ∧
        readDigits digits = some count := by
    unfold readCount
    split
    · next digits hchars =>
      -- with the plus sign itself it is no text of digits
      have hplus : readDigits (valueChars text) ≠ some count := by
        rw [hchars, ne_eq, readDigits_eq_some_iff, Text.denotes_iff]
        rintro ⟨⟨-, hdigit, -⟩, -⟩
        exact absurd (hdigit '+' List.mem_cons_self) (by decide)
      constructor
      · intro h
        exact ⟨digits, Or.inr hchars, h⟩
      · rintro ⟨digits', rfl | hsign, h⟩
        · exact absurd h hplus
        · rw [hchars] at hsign
          obtain ⟨-, rfl⟩ := List.cons.inj hsign
          exact h
    · next hnone =>
      constructor
      · intro h
        exact ⟨valueChars text, Or.inl rfl, h⟩
      · rintro ⟨digits, rfl | hsign, h⟩
        · exact h
        · exact absurd hsign (hnone digits)
  rw [hcount, CountText]
  simp only [readDigits_eq_some_iff]
  constructor
  · rintro ⟨digits, hcore, hdigits⟩
    exact ⟨valueChars text, digits, Text.trims_trimBlanks _, hcore, hdigits⟩
  · rintro ⟨core, digits, hcore, hsign, hdigits⟩
    obtain rfl := hcore.trimBlanks_eq
    exact ⟨digits, hsign, hdigits⟩

/-- Zeros in front do not count, and `2 ^ 64` is the first number that is refused. -/
example :
    readCount "\t+00018446744073709551615 " = some 18446744073709551615 ∧
      readCount "18446744073709551616" = none := by
  decide +kernel

/-! ## Variables -/

namespace Environment

variable {environment : Environment} {name text : String}

/-- A variable is set to a text.  One whose bytes are no text is not. -/
def Sets (environment : Environment) (name text : String) : Prop :=
  NameMap.get? environment name = some text.toUTF8

theorem fromUTF8?_eq_some_iff {bytes : ByteArray} :
    String.fromUTF8? bytes = some text ↔ bytes = text.toUTF8 := by
  unfold String.fromUTF8?
  split
  · next hvalid =>
    rw [Option.some.injEq]
    constructor
    · rintro rfl
      rfl
    · rintro rfl
      rfl
  · next hinvalid =>
    constructor
    · intro h
      cases h
    · rintro rfl
      exact absurd text.isValidUTF8 hinvalid

theorem text?_eq_some_iff : environment.text? name = some text ↔ environment.Sets name text := by
  rw [text?, Option.bind_eq_some_iff, Sets]
  constructor
  · rintro ⟨bytes, hbytes, htext⟩
    rw [hbytes, fromUTF8?_eq_some_iff.1 htext]
  · intro hbytes
    exact ⟨_, hbytes, fromUTF8?_eq_some_iff.2 rfl⟩

theorem text?_eq_none_iff :
    environment.text? name = none ↔ ∀ text, ¬ environment.Sets name text := by
  simp only [Option.eq_none_iff_forall_ne_some, ne_eq, text?_eq_some_iff]

section

variable {α : Type} {Stands : String → α → Prop} {reader : String → Option α}

/-- What a variable gives: nothing if it is not set to a text, else what its text stands for. -/
inductive Gives (Stands : String → α → Prop) (environment : Environment) (name : String) :
    Option α → Prop
  | unset : (∀ text, ¬ environment.Sets name text) → Gives Stands environment name none
  | read {text : String} {value : α} :
    environment.Sets name text → Stands text value → Gives Stands environment name (some value)

/-- A variable is set to a text that stands for nothing. -/
def Refuses (Stands : String → α → Prop) (environment : Environment) (name text : String) : Prop :=
  environment.Sets name text ∧ ∀ value, ¬ Stands text value

theorem gives_iff {given : Option α} : Gives Stands environment name given ↔
    (environment.text? name = none ∧ given = none) ∨
      ∃ text value, environment.text? name = some text ∧ Stands text value ∧
        given = some value := by
  constructor
  · intro h
    cases h with
    | unset hunset => exact Or.inl ⟨text?_eq_none_iff.2 hunset, rfl⟩
    | read hset hstands => exact Or.inr ⟨_, _, text?_eq_some_iff.2 hset, hstands, rfl⟩
  · rintro (⟨hunset, rfl⟩ | ⟨text, value, hset, hstands, rfl⟩)
    · exact .unset (text?_eq_none_iff.1 hunset)
    · exact .read (text?_eq_some_iff.1 hset) hstands

variable (hreader : ∀ {text value}, reader text = some value ↔ Stands text value)

include hreader

theorem read_eq_ok_iff {expected : String} {given : Option α} :
    environment.read name reader expected = .ok given ↔ Gives Stands environment name given := by
  rw [gives_iff, read]
  cases environment.text? name with
  | none => simp [eq_comm]
  | some text => cases hvalue : reader text <;> simp [← hreader, hvalue, eq_comm]

theorem read_eq_error_iff {expected : String} {invalid : InvalidVariable} :
    environment.read name reader expected = .error invalid ↔
      ∃ text, Refuses Stands environment name text ∧ invalid = ⟨name, text, expected⟩ := by
  simp only [Refuses, ← text?_eq_some_iff, ← hreader, read]
  cases environment.text? name with
  | none => simp
  | some text => cases hvalue : reader text <;> simp [hvalue, eq_comm]

end

/-- Environments in which a variable is set to the same texts read it alike. -/
theorem text?_congr {environment' : Environment}
    (h : ∀ text, environment.Sets name text ↔ environment'.Sets name text) :
    environment.text? name = environment'.text? name := by
  apply Option.ext
  intro text
  rw [text?_eq_some_iff, text?_eq_some_iff, h]

end Environment

/-! ## Options -/

namespace ReportOptions

/-- The name of the variable for `logProblems`. -/
def logVariable (word : String) : String := Text.upperCase word ++ "_LOG_DIAGNOSTICS"

/-- The name of the variable for `limit`. -/
def limitVariable (word : String) : String := Text.upperCase word ++ "_MAX_REPORTED_DIAGNOSTICS"

variable {word : String} {environment : Environment}

theorem ofEnvironment_eq (word : String) (environment : Environment) :
    ofEnvironment word environment =
      (environment.read (logVariable word) readFlag "a boolean").bind fun log =>
        (environment.read (limitVariable word) readCount "a non-negative integer").bind fun limit =>
          .ok ⟨log.getD default.logProblems, limit <|> default.limit⟩ := rfl

theorem ofEnvironment_eq_ok_iff {options : ReportOptions} :
    ofEnvironment word environment = .ok options ↔ ∃ log limit,
      environment.read (logVariable word) readFlag "a boolean" = .ok log ∧
      environment.read (limitVariable word) readCount "a non-negative integer" = .ok limit ∧
      options = ⟨log.getD default.logProblems, limit.or default.limit⟩ := by
  rw [ofEnvironment_eq]
  cases environment.read (logVariable word) readFlag "a boolean" with
  | error invalid => simp [Except.bind]
  | ok log =>
    cases environment.read (limitVariable word) readCount "a non-negative integer" with
    | error invalid => simp [Except.bind]
    | ok limit => simp [Except.bind, eq_comm]

theorem ofEnvironment_eq_error_iff {invalid : InvalidVariable} :
    ofEnvironment word environment = .error invalid ↔
      environment.read (logVariable word) readFlag "a boolean" = .error invalid ∨
      ∃ log, environment.read (logVariable word) readFlag "a boolean" = .ok log ∧
        environment.read (limitVariable word) readCount "a non-negative integer" =
          .error invalid := by
  rw [ofEnvironment_eq]
  cases environment.read (logVariable word) readFlag "a boolean" with
  | error refused => simp [Except.bind]
  | ok log =>
    cases environment.read (limitVariable word) readCount "a non-negative integer" with
    | error refused => simp [Except.bind]
    | ok limit => simp [Except.bind]

/-- Two variables make up the options of an environment.  Each of them may be unset, which keeps the
    default, and otherwise has to stand for a value; the first one that does not is refused, with
    its text as it is.  No other variable counts. -/
theorem ofEnvironment_follows (word : String) :
    (∀ environment options, ofEnvironment word environment = .ok options ↔
      ∃ log limit, environment.Gives FlagText (logVariable word) log ∧
        environment.Gives CountText (limitVariable word) limit ∧
        options = ⟨log.getD default.logProblems, limit.or default.limit⟩) ∧
    (∀ environment invalid, ofEnvironment word environment = .error invalid ↔
      (∃ text, environment.Refuses FlagText (logVariable word) text ∧
        invalid = ⟨logVariable word, text, "a boolean"⟩) ∨
      ∃ log text, environment.Gives FlagText (logVariable word) log ∧
        environment.Refuses CountText (limitVariable word) text ∧
        invalid = ⟨limitVariable word, text, "a non-negative integer"⟩) ∧
    ∀ environment environment' : Environment,
      (∀ name ∈ [logVariable word, limitVariable word], ∀ text,
        environment.Sets name text ↔ environment'.Sets name text) →
      ofEnvironment word environment = ofEnvironment word environment' := by
  refine ⟨fun environment options => ?_, fun environment invalid => ?_,
    fun environment environment' hsame => ?_⟩
  · simp only [ofEnvironment_eq_ok_iff, Environment.read_eq_ok_iff readFlag_eq_some_iff,
      Environment.read_eq_ok_iff readCount_eq_some_iff]
  · simp only [ofEnvironment_eq_error_iff, Environment.read_eq_ok_iff readFlag_eq_some_iff,
      Environment.read_eq_error_iff readFlag_eq_some_iff,
      Environment.read_eq_error_iff readCount_eq_some_iff, exists_and_left]
  · have hlog := Environment.text?_congr (hsame (logVariable word) (by simp))
    have hlimit := Environment.text?_congr (hsame (limitVariable word) (by simp))
    rw [ofEnvironment_eq, ofEnvironment_eq, Environment.read, Environment.read, Environment.read,
      Environment.read, hlog, hlimit]

end ReportOptions

end Injection
