set_option autoImplicit false

namespace InferenceGraph

inductive Width where
  | one | two | four | eight
  deriving DecidableEq, Repr

inductive ElementType where
  | float16
  | float32
  | signed (width : Width)
  | unsigned (width : Width)
  deriving DecidableEq, Repr

def Width.bytes : Width → Nat
  | .one => 1
  | .two => 2
  | .four => 4
  | .eight => 8

def Width.bits (w : Width) : Nat := w.bytes * 8

def Width.tag (w : Width) : String := "S" ++ toString w.bits

namespace ElementType

def width : ElementType → Width
  | float16 => .two
  | float32 => .four
  | signed w => w
  | unsigned w => w

def bytes (t : ElementType) : Nat := t.width.bytes

def isSigned : ElementType → Bool
  | unsigned _ => false
  | _ => true

def isFloat : ElementType → Bool
  | float16 | float32 => true
  | _ => false

def all : List ElementType :=
  [float16, float32, signed .one, signed .two, signed .four, signed .eight,
    unsigned .one, unsigned .two, unsigned .four, unsigned .eight]

def code : ElementType → Int32
  | float16 => 0
  | float32 => 1
  | signed .one => 2
  | signed .two => 3
  | signed .four => 4
  | signed .eight => 5
  | unsigned .one => 6
  | unsigned .two => 7
  | unsigned .four => 8
  | unsigned .eight => 9

def ofCode? (c : Int32) : Option ElementType := all.find? fun t => t.code == c

/-- Running text has `f16`, `i8`, `u64`. -/
def text : ElementType → String
  | float16 => "f16"
  | float32 => "f32"
  | signed w => "i" ++ toString w.bits
  | unsigned w => "u" ++ toString w.bits

/-- Parameter texts have `F16`, `I(S8)`, `U(S64)`. -/
def tag : ElementType → String
  | float16 => "F16"
  | float32 => "F32"
  | signed w => "I(" ++ w.tag ++ ")"
  | unsigned w => "U(" ++ w.tag ++ ")"

theorem mem_all (t : ElementType) : t ∈ all := by
  cases t with
  | float16 => decide
  | float32 => decide
  | signed w => cases w <;> decide
  | unsigned w => cases w <;> decide

@[simp] theorem ofCode?_code (t : ElementType) : ofCode? t.code = some t := by
  cases t with
  | float16 => rfl
  | float32 => rfl
  | signed w => cases w <;> rfl
  | unsigned w => cases w <;> rfl

theorem code_of_ofCode? {c : Int32} {t : ElementType} (h : ofCode? c = some t) : t.code = c := by
  simpa using List.find?_some h

end ElementType

end InferenceGraph
