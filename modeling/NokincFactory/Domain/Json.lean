/-
  File:      NokincFactory/Domain/Json.lean
  Subject:   JSON values and the canonical text that content addresses hash.

  `content_digest` hashes `json.dumps(value, sort_keys=True, ensure_ascii=False,
  allow_nan=False, separators=(",", ":"))`. A text is a list of Unicode scalar
  values, as a Python `str` is once it can be encoded to UTF-8. The hash itself is
  a parameter (`Sha256`): nothing below assumes anything of it.

  A digest is written `sha256:` and 64 lowercase hexadecimal digits. It is kept as
  the 256-bit number these digits spell; texts of one length order as their numbers
  do, so sorting digests sorts their texts.
-/
import Mathlib.Data.List.Sort
import Mathlib.Data.String.Basic

namespace NokincFactory

/-! ## 1. Values and their canonical text -/

/-- A JSON value; an object lists its members. -/
inductive Json where
  | null
  | bool (value : Bool)
  | int (value : Int)
  | str (value : List Char)
  | arr (items : List Json)
  | obj (members : List (String × Json))

namespace Json

def hexDigit (n : Nat) : Char := "0123456789abcdef".toList.getD n '0'

/-- One character of a string literal, escaped as `ensure_ascii=False` escapes it. -/
def escapeChar (c : Char) : List Char :=
  if c = '"' then ['\\', '"']
  else if c = '\\' then ['\\', '\\']
  else if c = '\n' then ['\\', 'n']
  else if c = '\r' then ['\\', 'r']
  else if c = '\t' then ['\\', 't']
  else if c.toNat = 12 then ['\\', 'f']
  else if c.toNat = 8 then ['\\', 'b']
  else if c.toNat < 32 then
    ['\\', 'u', '0', '0', hexDigit (c.toNat / 16), hexDigit (c.toNat % 16)]
  else [c]

def quote (s : List Char) : List Char :=
  '"' :: (s.flatMap escapeChar ++ ['"'])

/-- A string value, from a Lean string. -/
def text (s : String) : Json := .str s.toList

def intText (n : Int) : List Char :=
  match n with
  | .ofNat k => Nat.toDigits 10 k
  | .negSucc k => '-' :: Nat.toDigits 10 (k + 1)

/-- Join texts with a separator. -/
def joinWith (sep : Char) : List (List Char) → List Char
  | [] => []
  | [t] => t
  | t :: u :: ts => t ++ sep :: joinWith sep (u :: ts)

mutual
/-- The canonical text of a value: members in key order, no blanks. -/
def dumps : Json → List Char
  | .null => ['n', 'u', 'l', 'l']
  | .bool true => ['t', 'r', 'u', 'e']
  | .bool false => ['f', 'a', 'l', 's', 'e']
  | .int n => intText n
  | .str s => quote s
  | .arr items => '[' :: (joinWith ',' (dumpsItems items) ++ [']'])
  | .obj members =>
      let sorted := (dumpsMembers members).insertionSort (fun a b => a.1 ≤ b.1)
      '{' :: (joinWith ',' (sorted.map fun m => quote m.1.toList ++ ':' :: m.2) ++ ['}'])

def dumpsItems : List Json → List (List Char)
  | [] => []
  | v :: vs => dumps v :: dumpsItems vs

def dumpsMembers : List (String × Json) → List (String × List Char)
  | [] => []
  | (k, v) :: ms => (k, dumps v) :: dumpsMembers ms
end

end Json

/-! ## 2. Digests -/

/-- A SHA-256 digest. -/
structure Digest where
  bits : BitVec 256
deriving DecidableEq

namespace Digest

/-- The 64 hexadecimal digits of a digest, most significant first. -/
def hex (d : Digest) : List Char :=
  (List.range 64).map fun i => Json.hexDigit (d.bits.toNat / 16 ^ (63 - i) % 16)

def text (d : Digest) : List Char := "sha256:".toList ++ d.hex

instance : LinearOrder Digest :=
  LinearOrder.lift' (fun d : Digest => d.bits.toNat) fun a b h => by
    cases a
    cases b
    exact congrArg Digest.mk (BitVec.eq_of_toNat_eq h)

end Digest

/-- `hashlib.sha256` of the UTF-8 encoding of a text. -/
class Sha256 where
  digest : List Char → Digest

variable [Sha256]

/-- `review_base.content_digest`: the digest of a value's canonical text. -/
def Json.contentDigest (value : Json) : Digest := Sha256.digest value.dumps

/-- A content-addressed value (`ReviewModel`): what `model_dump(mode="json",
    exclude={"content_digest"})` gives of it. -/
class ReviewModel (α : Type) where
  dump : α → List (String × Json)

/-- The `content_digest` field of a model. -/
def contentDigest {α : Type} [ReviewModel α] (value : α) : Digest :=
  (Json.obj (ReviewModel.dump value)).contentDigest

/-- A model inside another one: its own `content_digest` is dumped with it. -/
def ReviewModel.json {α : Type} [ReviewModel α] (value : α) : Json :=
  .obj (("content_digest", .str (contentDigest value).text) :: ReviewModel.dump value)

/-- A tuple field. -/
def Json.tuple {α : Type} (f : α → Json) (values : List α) : Json := .arr (values.map f)

/-- A field that may be `None`. -/
def Json.optional {α : Type} (f : α → Json) : Option α → Json
  | none => .null
  | some v => f v

example : (Json.arr [.null, .int (-2), .text "x\n", .bool true]).dumps =
    "[null,-2,\"x\\n\",true]".toList := by decide

end NokincFactory
