/-
  What a value gives a hash function to read.

  A feed is a sequence of tokens.  Values that count as equal give the same
  feed, so a hash computed from the feed alone never tells them apart.
-/

namespace Injection

/-- A piece of a value that a hash function reads at once. -/
inductive Feed.Token where
  /-- Which of several forms a value has. -/
  | tag (n : Nat)
  /-- The length of a list that follows. -/
  | length (n : Nat)
  /-- A number or character of a fixed width. -/
  | word (n : UInt64)
  | text (s : String)
  deriving DecidableEq

/-- The tokens of a value, in order. -/
abbrev Feed := List Feed.Token

namespace Feed

/-! ## Digests -/

/-- Stirs a number into a hash: the two are combined bit by bit, then multiplied. -/
def stir (hash n : UInt64) : UInt64 := (hash ^^^ n) * 1099511628211

/-- Stirs a token into a hash: a number at once, a text byte by byte and then its length. -/
def Token.stir (hash : UInt64) : Token → UInt64
  | .tag n => Feed.stir hash n.toUInt64
  | .length n => Feed.stir hash n.toUInt64
  | .word n => Feed.stir (Feed.stir hash (n >>> 32)) n
  | .text s =>
    let bytes := s.toUTF8
    Feed.stir (bytes.foldl (fun hash byte => Feed.stir hash byte.toUInt64) hash)
      bytes.size.toUInt64

/-- The hash of a feed.  In the end the upper half, which depends on all tokens, is combined with
    the lower one. -/
def digest (feed : Feed) : UInt64 :=
  let hash := feed.foldl Token.stir 14695981039346656037
  hash ^^^ (hash >>> 32)

end Feed

end Injection
