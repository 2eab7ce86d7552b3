import InferenceGraph.Program.Drawing

/-!
# Escapes

Escaping a text is the same as replacing the ampersands first and the angle brackets after them: the
ampersands of the other escapes are then none that were there before. Undoing it takes the same
replacements back in the opposite order, the ampersands last, so that no bracket is made up from an
ampersand and the letters that happen to follow it.
-/

set_option autoImplicit false

namespace InferenceGraph

namespace Text

/-- Every occurrence of a part, from the left and without overlaps, gives way to another; the empty
part does not occur. -/
def replaceChars (old new : List Char) : List Char → List Char
  | [] => []
  | c :: rest =>
    if old ≠ [] ∧ old.isPrefixOf (c :: rest) then
      new ++ replaceChars old new (rest.drop (old.length - 1))
    else c :: replaceChars old new rest
termination_by text => text.length
decreasing_by all_goals grind

def replaced (s old new : String) : String :=
  String.ofList (replaceChars old.toList new.toList s.toList)

@[simp] theorem replaceChars_nil (old new : List Char) : replaceChars old new [] = [] := by
  rw [replaceChars]

theorem replaceChars_append (c : Char) (old new rest : List Char) :
    replaceChars (c :: old) new (c :: old ++ rest) = new ++ replaceChars (c :: old) new rest := by
  rw [List.cons_append, replaceChars, if_pos (by simp)]
  simp

theorem replaceChars_cons_of_ne {c d : Char} (h : d ≠ c) (old new rest : List Char) :
    replaceChars (c :: old) new (d :: rest) = d :: replaceChars (c :: old) new rest := by
  rw [replaceChars, if_neg (by simp [Ne.symm h])]

theorem replaceChars_singleton (a : Char) (new text : List Char) :
    replaceChars [a] new text = text.flatMap fun c => if c = a then new else [c] := by
  induction text with
  | nil => simp
  | cons c text ih =>
    rw [List.flatMap_cons, ← ih]
    by_cases h : c = a
    · subst h
      rw [if_pos rfl]
      exact replaceChars_append c [] new text
    · rw [if_neg h, replaceChars_cons_of_ne h]
      rfl

end Text

namespace Drawing

open Text

theorem escape_eq_replaced (s : String) :
    escape s = replaced (replaced (replaced s "&" "&amp;") "<" "&lt;") ">" "&gt;" := by
  simp only [escape, replaced, String.toList_ofList]
  refine congrArg String.ofList ?_
  change _ = replaceChars ['>'] _ (replaceChars ['<'] _ (replaceChars ['&'] _ _))
  rw [replaceChars_singleton, replaceChars_singleton, replaceChars_singleton, List.flatMap_assoc,
    List.flatMap_assoc]
  congr 1
  funext c
  unfold escapeChar
  split
  · decide
  · decide
  · decide
  · next hamp hlt hgt =>
    rw [if_neg hamp, List.flatMap_singleton, if_neg hlt, List.flatMap_singleton, if_neg hgt]

def escapeOnly (special : List Char) (c : Char) : List Char :=
  if c ∈ special then escapeChar c else [c]

def specials : List Char := ['&', '<', '>']

/-- An escape is not touched when another one is undone: it is no other, and its ampersand is the
only one in it. -/
theorem replaceChars_escapeChar_of_ne {a c : Char} (ha : a ∈ specials) (hc : c ∈ specials)
    (h : c ≠ a) (new rest : List Char) :
    replaceChars (escapeChar a) new (escapeChar c ++ rest) =
      escapeChar c ++ replaceChars (escapeChar a) new rest := by
  simp only [specials, List.mem_cons, List.not_mem_nil, or_false] at ha hc
  rcases ha with rfl | rfl | rfl <;> rcases hc with rfl | rfl | rfl <;>
    first
    | exact absurd rfl h
    | simp [escapeChar, replaceChars]

theorem replaceChars_escapeOnly {a : Char} (ha : a ∈ specials) {special : List Char}
    (hs : ∀ c ∈ special, c ∈ specials) (hamp : '&' ∈ special) (text : List Char) :
    replaceChars (escapeChar a) [a] (text.flatMap (escapeOnly special)) =
      text.flatMap (escapeOnly (special.filter (· ≠ a))) := by
  have hfirst : ∃ rest, escapeChar a = '&' :: rest := by
    simp only [specials, List.mem_cons, List.not_mem_nil, or_false] at ha
    rcases ha with rfl | rfl | rfl <;> exact ⟨_, rfl⟩
  obtain ⟨name, hname⟩ := hfirst
  induction text with
  | nil => simp
  | cons c text ih =>
    rw [List.flatMap_cons, List.flatMap_cons, ← ih]
    by_cases hc : c ∈ special
    · by_cases h : c = a
      · subst h
        have hout : c ∉ special.filter (· ≠ c) := by simp
        rw [escapeOnly, if_pos hc, escapeOnly, if_neg hout, hname]
        exact replaceChars_append _ _ _ _
      · have hin : c ∈ special.filter (· ≠ a) := by simp [hc, h]
        rw [escapeOnly, if_pos hc, escapeOnly, if_pos hin]
        exact replaceChars_escapeChar_of_ne ha (hs c hc) h _ _
    · have hne : c ≠ '&' := fun he => hc (he ▸ hamp)
      have hout : c ∉ special.filter (· ≠ a) := fun hm => hc (List.mem_filter.1 hm).1
      rw [escapeOnly, if_neg hc, escapeOnly, if_neg hout, hname]
      exact replaceChars_cons_of_ne hne _ _ _

theorem escapeOnly_specials : escapeOnly specials = escapeChar := by
  funext c
  unfold escapeOnly escapeChar
  split <;> simp_all [specials]

/-- The angle brackets come back first, the ampersands last. -/
theorem replaced_escape (s : String) :
    replaced (replaced (replaced (escape s) "&lt;" "<") "&gt;" ">") "&amp;" "&" = s := by
  simp only [escape, replaced, String.toList_ofList]
  change String.ofList (replaceChars (escapeChar '&') ['&'] (replaceChars (escapeChar '>') ['>']
    (replaceChars (escapeChar '<') ['<'] _))) = s
  have hall : s.toList.flatMap escapeChar = s.toList.flatMap (escapeOnly specials) := by
    rw [escapeOnly_specials]
  have hempty : ((specials.filter (· ≠ '<')).filter (· ≠ '>')).filter (· ≠ '&') = [] := by decide
  have hnone : escapeOnly [] = fun c => [c] := by
    funext c
    exact if_neg List.not_mem_nil
  have hlt : ∀ c ∈ specials.filter (· ≠ '<'), c ∈ specials :=
    fun _ hc => (List.mem_filter.1 hc).1
  have hgt : ∀ c ∈ (specials.filter (· ≠ '<')).filter (· ≠ '>'), c ∈ specials :=
    fun c hc => hlt c (List.mem_filter.1 hc).1
  rw [hall, replaceChars_escapeOnly (by decide) (fun _ hc => hc) (by decide),
    replaceChars_escapeOnly (by decide) hlt (by decide),
    replaceChars_escapeOnly (by decide) hgt (by decide), hempty, hnone,
    List.flatMap_singleton', String.ofList_toList]

theorem escape_injective : Function.Injective escape := by
  intro s t h
  rw [← replaced_escape s, h, replaced_escape]

end Drawing

end InferenceGraph
