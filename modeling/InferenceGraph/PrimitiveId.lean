import InferenceGraph.Text.Quoted
import InferenceGraph.Text.Utf8

/-!
# Primitive ids

The name of a primitive within a topology. Ids travel as strings that end at the first zero byte,
so an id is never empty and never holds the zero character. Ids are ordered by their bytes, which
is the order by code point.
-/

set_option autoImplicit false

namespace InferenceGraph

structure PrimitiveId where
  text : String
  text_ne : text ≠ ""
  no_zero : '\x00' ∉ text.toList
  deriving DecidableEq

inductive IdFault where
  | empty | zeroCharacter | notUtf8
  deriving DecidableEq, Repr

namespace IdFault

def message : IdFault → String
  | empty => "identifier cannot be empty"
  | zeroCharacter => "identifier contains a nul byte"
  | notUtf8 => "identifier is not utf-8"

end IdFault

structure RefusedId where
  text : String
  fault : IdFault
  deriving DecidableEq, Repr

namespace PrimitiveId

def ofString (s : String) : Except RefusedId PrimitiveId :=
  if h : s = "" then .error ⟨s, .empty⟩
  else if h' : '\x00' ∈ s.toList then .error ⟨s, .zeroCharacter⟩
  else .ok ⟨s, h, h'⟩

/-- Reads an id from memory, up to the first zero byte. -/
def ofBytes (memory : List UInt8) : Except RefusedId PrimitiveId :=
  let bytes := memory.takeWhile (· ≠ 0)
  match Text.Utf8.decode? bytes with
  | some s => ofString s
  | none => .error ⟨Text.Utf8.decodeLenient bytes, .notUtf8⟩

def bytes (id : PrimitiveId) : List UInt8 := Text.Utf8.encode id.text

def quoted (id : PrimitiveId) : String := Text.quoted id.text

def le (a b : PrimitiveId) : Bool := a.text ≤ b.text

@[simp] theorem ofString_text (id : PrimitiveId) : ofString id.text = .ok id := by
  cases id
  simp_all [ofString]

theorem text_of_ofString {s : String} {id : PrimitiveId} (h : ofString s = .ok id) :
    id.text = s := by
  unfold ofString at h
  split at h
  · cases h
  · split at h
    · cases h
    · cases h
      rfl

end PrimitiveId

end InferenceGraph
