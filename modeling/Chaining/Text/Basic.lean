/-!
# Text that may hold lone surrogates

Keys, values and names are sequences of code points, as callers hand them over. A code point
is a Unicode scalar value (a `Char`) or a lone surrogate, one of the 2048 code points from
`0xD800` to `0xDFFF` that no `Char` stands for. A surrogate has no UTF-8 form, so a text holding
one cannot be encoded.

* `CodePoint`, `Text`: the two types, with `Text.ofString` for texts without surrogates.
* `Text.chars?`: the characters of a text, or the `EncodeFault` that says where the first run of
  surrogates stands. `Text.utf8?` is the UTF-8 encoding built on it.
* `chars?_isOk_iff`: a text has characters exactly when it holds no surrogate.
-/

namespace Chaining

/-- One element of a text: a Unicode scalar value, or the lone surrogate `0xD800 + offset`. -/
inductive CodePoint where
  | scalar (c : Char)
  | surrogate (offset : Fin 0x800)
deriving DecidableEq, Repr

namespace CodePoint

/-- The number of the code point. -/
def toNat : CodePoint → Nat
  | scalar c => c.toNat
  | surrogate o => 0xD800 + o.val

/-- The code point with number `n`, for `n < 0x110000`; a larger number gives the character `0`. -/
def ofNat (n : Nat) : CodePoint :=
  if h : 0xD800 ≤ n ∧ n < 0xE000 then .surrogate ⟨n - 0xD800, by omega⟩ else .scalar (Char.ofNat n)

/-- Whether the code point is a lone surrogate. -/
def isSurrogate : CodePoint → Bool
  | scalar _ => false
  | surrogate _ => true

/-- The character, unless the code point is a surrogate. -/
def char? : CodePoint → Option Char
  | scalar c => some c
  | surrogate _ => none

/-- Whether the code point is the character `ch`. -/
def is (p : CodePoint) (ch : Char) : Bool := p == scalar ch

@[simp] theorem char?_scalar (c : Char) : (scalar c).char? = some c := rfl

@[simp] theorem isSurrogate_scalar (c : Char) : (scalar c).isSurrogate = false := rfl

theorem char?_eq_none_iff (p : CodePoint) : p.char? = none ↔ p.isSurrogate = true := by
  cases p <;> simp [char?, isSurrogate]

end CodePoint

/-- A text: a finite sequence of code points. -/
structure Text where
  points : List CodePoint
deriving DecidableEq, Repr

namespace Text

/-- The text with no code point. -/
def empty : Text := ⟨[]⟩

/-- The text of the characters of a string. -/
def ofString (s : String) : Text := ⟨s.toList.map .scalar⟩

/-- The text of a list of characters. -/
def ofChars (cs : List Char) : Text := ⟨cs.map .scalar⟩

instance : Append Text := ⟨fun a b => ⟨a.points ++ b.points⟩⟩

instance : Inhabited Text := ⟨empty⟩

@[simp] theorem points_append (a b : Text) : (a ++ b).points = a.points ++ b.points := rfl

@[simp] theorem points_ofString (s : String) : (ofString s).points = s.toList.map .scalar := rfl

/-- The number of code points. -/
def length (t : Text) : Nat := t.points.length

/-- Whether the text has no code point. -/
def isEmpty (t : Text) : Bool := t.points.isEmpty

/-- The texts joined, with `sep` between each two. -/
def join (sep : Text) : List Text → Text
  | [] => empty
  | [t] => t
  | t :: ts => t ++ sep ++ join sep ts

end Text

/-- Where a text fails to encode as UTF-8: the first run of consecutive surrogates, by the
position of its first surrogate counted in code points, that surrogate, and how many stand in a
row from there on, at least one. -/
structure EncodeFault where
  start : Nat
  first : Fin 0x800
  run : Nat
deriving DecidableEq, Repr

namespace Text

/-- The length of the run of surrogates at the front of a list of code points. -/
def surrogateRun (ps : List CodePoint) : Nat := (ps.takeWhile CodePoint.isSurrogate).length

/-- The fault of a list of code points whose first surrogate stands at position `i`. -/
def faultAt (ps : List CodePoint) (i : Nat) : EncodeFault :=
  match ps.drop i with
  | .surrogate o :: rest => ⟨i, o, 1 + surrogateRun rest⟩
  | _ => ⟨i, 0, 1⟩

/-- The characters of the text, or where its first run of surrogates stands. -/
def chars? (t : Text) : Except EncodeFault (List Char) :=
  match t.points.findIdx? CodePoint.isSurrogate with
  | some i => .error (faultAt t.points i)
  | none => .ok (t.points.filterMap CodePoint.char?)

/-- The UTF-8 bytes of the text, or where its first run of surrogates stands. -/
def utf8? (t : Text) : Except EncodeFault (List UInt8) :=
  (t.chars?).map (·.flatMap String.utf8EncodeChar)

/-- A text has characters exactly when it holds no surrogate. -/
theorem chars?_isOk_iff (t : Text) :
    (∃ cs, t.chars? = .ok cs) ↔ ∀ p ∈ t.points, p.isSurrogate = false := by
  unfold chars?
  constructor
  · rintro ⟨cs, h⟩ p hp
    split at h
    · cases h
    · rename_i hn
      rw [List.findIdx?_eq_none_iff] at hn
      simpa using hn p hp
  · intro h
    have hn : t.points.findIdx? CodePoint.isSurrogate = none := by
      rw [List.findIdx?_eq_none_iff]
      intro p hp
      simp [h p hp]
    simp [hn]

@[simp] theorem chars?_ofChars (cs : List Char) : (ofChars cs).chars? = .ok cs := by
  have hn : (ofChars cs).points.findIdx? CodePoint.isSurrogate = none := by
    rw [List.findIdx?_eq_none_iff]
    intro p hp
    simp only [ofChars, List.mem_map] at hp
    obtain ⟨c, _, rfl⟩ := hp
    rfl
  unfold chars?
  rw [hn]
  simp [ofChars, Function.comp_def]

@[simp] theorem chars?_ofString (s : String) : (ofString s).chars? = .ok s.toList :=
  chars?_ofChars s.toList

example : (Text.ofString "é").utf8?.toOption = some [195, 169] := by decide

end Text

end Chaining
