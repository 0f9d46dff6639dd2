import MailCapture.Wire
/-!
Values that are given as a whole number or as a text, such as ports by number or by name.
-/
namespace MailCapture

inductive NumberOrText where
  | number (n : Int32)
  | text (s : String)
  deriving DecidableEq, Repr

namespace NumberOrText

def read? : Document → Option NumberOrText
  | .str s => some (.text s)
  | v => (Wire.int32? v).map .number

def toJson : NumberOrText → Json
  | .number n => Wire.int32 n
  | .text s => .str s

end NumberOrText
end MailCapture
