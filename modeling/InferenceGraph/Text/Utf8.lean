/-!
# Reading bytes as text

Foreign text arrives as bytes. `Utf8.parts` reads them one by one; a byte that cannot continue the
character begun ends it, so each broken stretch is as long as it can be without holding more than
the start of one character. Read strictly, a broken stretch makes the text unreadable; read
leniently, it is replaced by one mark.
-/

set_option autoImplicit false

namespace InferenceGraph.Text.Utf8

/-- A character of which at least one byte is still missing. `low` and `high` bound the next byte. -/
structure Pending where
  value : Nat
  missing : Nat
  low : Nat
  high : Nat
  deriving DecidableEq, Repr

/-- What a byte above the single-byte range begins, if it can begin a character at all. The bounds
on the second byte exclude spellings that are too long, surrogates and code points above the last. -/
def lead? (b : Nat) : Option Pending :=
  if 0xc2 ≤ b ∧ b ≤ 0xdf then some ⟨b - 0xc0, 1, 0x80, 0xbf⟩
  else if b = 0xe0 then some ⟨b - 0xe0, 2, 0xa0, 0xbf⟩
  else if b = 0xed then some ⟨b - 0xe0, 2, 0x80, 0x9f⟩
  else if 0xe1 ≤ b ∧ b ≤ 0xef then some ⟨b - 0xe0, 2, 0x80, 0xbf⟩
  else if b = 0xf0 then some ⟨b - 0xf0, 3, 0x90, 0xbf⟩
  else if 0xf1 ≤ b ∧ b ≤ 0xf3 then some ⟨b - 0xf0, 3, 0x80, 0xbf⟩
  else if b = 0xf4 then some ⟨b - 0xf0, 3, 0x80, 0x8f⟩
  else none

def begin (b : Nat) : List (Option Char) × Option Pending :=
  if b < 0x80 then ([some (Char.ofNat b)], none)
  else match lead? b with
    | some p => ([], some p)
    | none => ([none], none)

def step : Option Pending → Nat → List (Option Char) × Option Pending
  | none, b => begin b
  | some p, b =>
    if p.low ≤ b ∧ b ≤ p.high then
      let value := p.value * 64 + (b - 0x80)
      if p.missing ≤ 1 then ([some (Char.ofNat value)], none)
      else ([], some ⟨value, p.missing - 1, 0x80, 0xbf⟩)
    else
      let (done, pending) := begin b
      (none :: done, pending)

/-- The characters of a byte string in order, `none` for each broken stretch. -/
def partsFrom : Option Pending → List UInt8 → List (Option Char)
  | none, [] => []
  | some _, [] => [none]
  | p, b :: rest =>
    let (done, pending) := step p b.toNat
    done ++ partsFrom pending rest

def parts (bytes : List UInt8) : List (Option Char) := partsFrom none bytes

def decode? (bytes : List UInt8) : Option String :=
  ((parts bytes).mapM id).map String.ofList

/-- The text with a replacement mark for each broken stretch. -/
def decodeLenient (bytes : List UInt8) : String :=
  String.ofList ((parts bytes).map fun part => part.getD '\ufffd')

def encode (s : String) : List UInt8 := s.toUTF8.data.toList

end InferenceGraph.Text.Utf8
