import Chaining.Text.Literal

/-!
# Why a request is refused

Every refusal of the library is a `Fault`, one constructor per cause; `Fault.message` gives
its text and `Fault.kind` its class. The refusals of templates are a `TemplateFault`. The texts are fixed by the program's contract; they live here and nowhere else.
-/

namespace Chaining

/-- Why a template cannot be filled with an argument. A cause carries what its message shows:
the missing key, the unknown conversion character with its index, or the conversion and the kind
of the datum it was given. The `TooBig` causes are amounts written in the template, the `TooWide`
ones amounts taken from the argument. -/
inductive TemplateFault where
  | missingArgument
  | unusedArgument
  | incomplete
  | incompleteKey
  | needsMapping
  | missingKey (key : Text)
  | keyOnList
  | unsupported (c : CodePoint) (index : Nat)
  | starNeedsInt
  | widthTooBig
  | precisionTooBig
  | widthTooWide
  | precisionTooWide
  | precisionTooLarge
  | needsReal (conversion : Char) (kind : String)
  | needsInteger (conversion : Char) (kind : String)
  | nanToInteger
  | infinityToInteger
  | needsFloat (kind : String)
  | needsChar
  | charOutOfRange
  | outOfMemory
deriving Repr

namespace TemplateFault

/-- The text of the refusal. -/
def message : TemplateFault → Text
  | missingArgument => .ofString "not enough arguments for format string"
  | unusedArgument => .ofString "not all arguments converted during string formatting"
  | incomplete => .ofString "incomplete format"
  | incompleteKey => .ofString "incomplete format key"
  | needsMapping => .ofString "format requires a mapping"
  | missingKey key => key.literal
  | keyOnList => .ofString "list indices must be integers or slices, not str"
  | unsupported c i =>
    let n := c.toNat
    let shown : Text := if 31 ≤ n ∧ n ≤ 126 then ⟨[c]⟩ else .ofString "?"
    .ofString "unsupported format character '" ++ shown ++
      .ofString ("' (0x" ++ Numeral.hex 1 n ++ ") at index " ++ Numeral.int i)
  | starNeedsInt => .ofString "* wants int"
  | widthTooBig => .ofString "width too big"
  | precisionTooBig => .ofString "precision too big"
  | widthTooWide => .ofString "Python int too large to convert to C ssize_t"
  | precisionTooWide => .ofString "Python int too large to convert to C int"
  | precisionTooLarge => .ofString "precision too large"
  | needsReal c k => .ofString ("%" ++ c.toString ++ " format: a real number is required, not " ++ k)
  | needsInteger c k => .ofString ("%" ++ c.toString ++ " format: an integer is required, not " ++ k)
  | nanToInteger => .ofString "cannot convert float NaN to integer"
  | infinityToInteger => .ofString "cannot convert float infinity to integer"
  | needsFloat k => .ofString ("must be real number, not " ++ k)
  | needsChar => .ofString "%c requires int or char"
  | charOutOfRange => .ofString "%c arg not in range(0x110000)"
  | outOfMemory => .empty

/-- The class of the refusal. -/
def kind : TemplateFault → String
  | missingArgument | unusedArgument | needsMapping | keyOnList | starNeedsInt | needsReal _ _
  | needsInteger _ _ | needsFloat _ | needsChar => "TypeError"
  | incomplete | incompleteKey | unsupported _ _ | widthTooBig | precisionTooBig | nanToInteger =>
    "ValueError"
  | missingKey _ => "KeyError"
  | widthTooWide | precisionTooWide | precisionTooLarge | infinityToInteger | charOutOfRange =>
    "OverflowError"
  | outOfMemory => "MemoryError"

end TemplateFault

/-- The cause of a refusal. A cause carries what its message shows: the kind of a datum that is
refused, a key or a table name, or a count or an index as it is shown. `keysOverrun` and
`countMismatch` are what a table whose count disagrees with its chains runs into. -/
inductive Fault where
  | freed
  | keyNotText (kind : String)
  | keyEmpty
  | keyUnencodable (key : Text)
  | valueNotText (kind : String)
  | entryUnavailable (key : Text)
  | bucketsUnavailable (count : Nat)
  | countBelowOne (shown : Text)
  | countFractional
  | countUnordered (kind : String)
  | countTooWide
  | indexOutOfRange (index count : Text)
  | indexUnordered (kind : String)
  | indexFractional
  | unencodable (fault : EncodeFault)
  | notEncodable (kind : String)
  | moduloByZero
  | operandsUnsupported (left right : String)
  | noTail
  | unknownTable (name : Text)
  | noSubject
  | floatModuloByZero
  | intTooLarge
  | template (e : TemplateFault)
  | keysOverrun
  | countMismatch
deriving Repr

namespace Fault

/-- The message of an encoding fault: the surrogate itself when it stands alone, the span of
positions when several stand in a row. -/
def encodeMessage (e : EncodeFault) : String :=
  let tail := ": surrogates not allowed"
  if e.run ≤ 1 then
    "'utf-8' codec can't encode character '\\u" ++ Numeral.hex 4 (0xD800 + e.first.val) ++
      "' in position " ++ Numeral.int e.start ++ tail
  else
    "'utf-8' codec can't encode characters in position " ++ Numeral.int e.start ++ "-" ++
      Numeral.int (e.start + e.run - 1) ++ tail

/-- The text of the refusal. -/
def message : Fault → Text
  | freed => .ofString "table has been freed"
  | keyNotText k => .ofString ("key must be a string, got " ++ k)
  | keyEmpty => .ofString "key must not be empty"
  | keyUnencodable key => .ofString "key " ++ key.literal ++ .ofString " is not encodable as UTF-8"
  | valueNotText k => .ofString ("value must be a string, got " ++ k)
  | entryUnavailable key => .ofString "cannot allocate entry for '" ++ key ++ .ofString "'"
  | bucketsUnavailable n => .ofString ("cannot allocate " ++ Numeral.int n ++ " buckets")
  | countBelowOne shown => .ofString "bucket_count must be at least 1, got " ++ shown
  | countFractional => .ofString "can't multiply sequence by non-int of type 'float'"
  | countUnordered k => .ofString ("'<' not supported between instances of '" ++ k ++ "' and 'int'")
  | countTooWide => .ofString "cannot fit 'int' into an index-sized integer"
  | indexOutOfRange i n =>
    .ofString "bucket index " ++ i ++ .ofString " out of range for " ++ n ++ .ofString " buckets"
  | indexUnordered k => .ofString ("'<=' not supported between instances of 'int' and '" ++ k ++ "'")
  | indexFractional => .ofString "list indices must be integers or slices, not float"
  | unencodable e => .ofString (encodeMessage e)
  | notEncodable k => .ofString ("'" ++ k ++ "' object has no attribute 'encode'")
  | moduloByZero => .ofString "integer modulo by zero"
  | operandsUnsupported a b =>
    .ofString ("unsupported operand type(s) for %: '" ++ a ++ "' and '" ++ b ++ "'")
  | noTail => .ofString "'NoneType' object has no attribute 'next'"
  | unknownTable name => .ofString "unknown table '" ++ name ++ .ofString "'"
  | noSubject => .ofString "missing field 't'"
  | floatModuloByZero => .ofString "float modulo"
  | intTooLarge => .ofString "int too large to convert to float"
  | template e => e.message
  | keysOverrun => .ofString "list assignment index out of range"
  | countMismatch => .empty

/-- The class of the refusal, as a caller catches it: a key refused by the key check is invalid,
memory that cannot be had is an allocation failure, a released table is its own class, and the
rest are the classes of the runtime's own errors. A malformed request is the caller's fault. -/
def kind : Fault → String
  | freed => "FreedTableError"
  | keyNotText _ | keyEmpty | keyUnencodable _ => "InvalidKeyError"
  | entryUnavailable _ | bucketsUnavailable _ => "AllocationError"
  | valueNotText _ | countFractional | countUnordered _ | indexUnordered _ | indexFractional
  | operandsUnsupported _ _ => "TypeError"
  | countBelowOne _ => "ValueError"
  | countTooWide => "OverflowError"
  | indexOutOfRange _ _ => "IndexError"
  | unencodable _ => "UnicodeEncodeError"
  | notEncodable _ | noTail => "AttributeError"
  | moduloByZero | floatModuloByZero => "ZeroDivisionError"
  | intTooLarge => "OverflowError"
  | template e => e.kind
  | keysOverrun => "IndexError"
  | countMismatch => "AssertionError"
  | unknownTable _ | noSubject => "DriverError"

end Fault

end Chaining
