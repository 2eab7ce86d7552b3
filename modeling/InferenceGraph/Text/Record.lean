set_option autoImplicit false

namespace InferenceGraph.Text

def joined (between : String) (items : List String) : String := String.intercalate between items

def list (items : List String) : String := "[" ++ joined ", " items ++ "]"

/-- A name and its fields: the braces are left out if there is no field. -/
def record (name : String) (fields : List (String × String)) : String :=
  match fields with
  | [] => name
  | _ => name ++ " \x7b " ++ joined ", " (fields.map fun (field, value) => field ++ ": " ++ value)
      ++ " \x7d"

def bool (b : Bool) : String := if b then "true" else "false"

end InferenceGraph.Text
