import MailCapture.Document.Number
/-!
The tokens of a JSON text, read in one pass over its characters.  The characters of a text between
quotes are collected as code points, among which escapes may put halves of pairs.
-/
namespace MailCapture.Document

inductive Token where
  | openArray
  | closeArray
  | openObject
  | closeObject
  | comma
  | colon
  /-- nothing where a pair is not whole -/
  | text (s : Option String)
  | atom (v : Document)
  deriving Repr

/-- What is being read; what was read so far stands in reverse. -/
inductive Scan where
  | between
  | word (read : List Char)
  | number (read : List Char)
  | text (read : List Nat)
  | escape (read : List Nat)
  | hex (read : List Nat) (count value : Nat)

structure Lexer where
  scan : Scan
  tokens : List Token

def isBlank (c : Char) : Bool := c == ' ' || c == '\t' || c == '\n' || c == '\r'

def isNumberChar (c : Char) : Bool :=
  c.isDigit || c == '-' || c == '+' || c == '.' || c == 'e' || c == 'E'

def hexValue? (c : Char) : Option Nat :=
  if c.isDigit then some (c.toNat - 48)
  else if 'a' ≤ c ∧ c ≤ 'f' then some (c.toNat - 87)
  else if 'A' ≤ c ∧ c ≤ 'F' then some (c.toNat - 55)
  else none

def word? : List Char → Option Document
  | ['n', 'u', 'l', 'l'] => some .null
  | ['t', 'r', 'u', 'e'] => some (.bool true)
  | ['f', 'a', 'l', 's', 'e'] => some (.bool false)
  | _ => none

def Lexer.finish (l : Lexer) : Option Lexer :=
  match l.scan with
  | .between => some l
  | .word read => (word? read.reverse).map (fun v => ⟨.between, .atom v :: l.tokens⟩)
  | .number read => (number? read.reverse).map (fun v => ⟨.between, .atom v :: l.tokens⟩)
  | _ => none

def Lexer.between (tokens : List Token) (c : Char) : Option Lexer :=
  if isBlank c then some ⟨.between, tokens⟩
  else if c = '"' then some ⟨.text [], tokens⟩
  else if c = '[' then some ⟨.between, .openArray :: tokens⟩
  else if c = ']' then some ⟨.between, .closeArray :: tokens⟩
  else if c = '\x7b' then some ⟨.between, .openObject :: tokens⟩
  else if c = '\x7d' then some ⟨.between, .closeObject :: tokens⟩
  else if c = ',' then some ⟨.between, .comma :: tokens⟩
  else if c = ':' then some ⟨.between, .colon :: tokens⟩
  else if c.isDigit ∨ c = '-' then some ⟨.number [c], tokens⟩
  else if c.isLower then some ⟨.word [c], tokens⟩
  else none

def unescape? (c : Char) : Option Char :=
  if c = '"' ∨ c = '\\' ∨ c = '/' then some c
  else if c = 'n' then some '\n'
  else if c = 't' then some '\t'
  else if c = 'r' then some '\r'
  else if c = 'b' then some (Char.ofNat 8)
  else if c = 'f' then some (Char.ofNat 12)
  else none

def isHighHalf (n : Nat) : Bool := 0xD800 ≤ n && n ≤ 0xDBFF

def isLowHalf (n : Nat) : Bool := 0xDC00 ≤ n && n ≤ 0xDFFF

/-- The characters of code points, unless a half stands alone. -/
def charsOf? : List Nat → Option (List Char)
  | [] => some []
  | [n] => if isHighHalf n || isLowHalf n then none else some [Char.ofNat n]
  | n :: next :: rest =>
    if isHighHalf n && isLowHalf next then
      (charsOf? rest).map (Char.ofNat (0x10000 + (n - 0xD800) * 0x400 + (next - 0xDC00)) :: ·)
    else if isHighHalf n || isLowHalf n then none
    else (charsOf? (next :: rest)).map (Char.ofNat n :: ·)

def textOf? (read : List Nat) : Option String := (charsOf? read.reverse).map String.ofList

def Lexer.step (l : Lexer) (c : Char) : Option Lexer :=
  match l.scan with
  | .between => Lexer.between l.tokens c
  | .word read =>
    if c.isLower then some ⟨.word (c :: read), l.tokens⟩
    else l.finish.bind (fun l => Lexer.between l.tokens c)
  | .number read =>
    if isNumberChar c then some ⟨.number (c :: read), l.tokens⟩
    else l.finish.bind (fun l => Lexer.between l.tokens c)
  | .text read =>
    if c = '"' then some ⟨.between, .text (textOf? read) :: l.tokens⟩
    else if c = '\\' then some ⟨.escape read, l.tokens⟩
    else if c.toNat < 32 then none
    else some ⟨.text (c.toNat :: read), l.tokens⟩
  | .escape read =>
    if c = 'u' then some ⟨.hex read 0 0, l.tokens⟩
    else (unescape? c).map (fun c => ⟨.text (c.toNat :: read), l.tokens⟩)
  | .hex read count value =>
    (hexValue? c).map (fun d =>
      let value := value * 16 + d
      ⟨if count = 3 then .text (value :: read) else .hex read (count + 1) value, l.tokens⟩)

def tokens? (cs : List Char) : Option (List Token) :=
  ((cs.foldlM Lexer.step ⟨.between, []⟩).bind Lexer.finish).map (fun l => l.tokens.reverse)

end MailCapture.Document
