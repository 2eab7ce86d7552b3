import InferenceGraph.Layout
import InferenceGraph.Proofs.Text.Delimited

set_option autoImplicit false

namespace InferenceGraph

open Text

namespace Scalar

theorem isDigit_of_mem_digitChars {n : Nat} {c : Char} (h : c ∈ digitChars n) :
    c.isDigit = true :=
  Nat.isDigit_of_mem_toDigits (by decide) (by decide) h

theorem isDigit_of_mem_zeros {n : Nat} {c : Char} (h : c ∈ zeros n) : c.isDigit = true := by
  rw [List.eq_of_mem_replicate h]
  rfl

theorem isDigit_of_mem_placed {digits : List Char} (hd : ∀ c ∈ digits, c.isDigit = true)
    (point : Int) {c : Char} (h : c ∈ (placed digits point).1 ++ (placed digits point).2) :
    c.isDigit = true := by
  unfold placed at h
  split at h
  · rcases List.mem_append.1 h with hz | hrest
    · rw [List.mem_singleton.1 hz]
      rfl
    · exact (List.mem_append.1 hrest).elim isDigit_of_mem_zeros (hd c)
  · rcases List.mem_append.1 h with hwhole | hrest
    · exact (List.mem_append.1 hwhole).elim (fun hm => hd c (List.mem_of_mem_take hm))
        isDigit_of_mem_zeros
    · exact hd c (List.mem_of_mem_drop hrest)

theorem mem_positional {d : Decimal} {c : Char} (h : c ∈ d.positional false) :
    c.isDigit = true ∨ c = '.' := by
  have hdigit : c ∈ _ → c.isDigit = true :=
    isDigit_of_mem_placed (fun _ hm => isDigit_of_mem_digitChars (n := d.digits) hm)
      ((digitChars d.digits).length + d.exponent)
  unfold Decimal.positional at h
  dsimp only at h
  split at h
  · next whole heq =>
    rw [heq] at hdigit
    exact .inl (hdigit (List.mem_append_left _ h))
  · next whole fraction _ heq =>
    rw [heq] at hdigit
    rcases List.mem_append.1 h with hwhole | hrest
    · exact .inl (hdigit (List.mem_append_left _ hwhole))
    · exact (List.mem_cons.1 hrest).elim .inr
        fun hfraction => .inl (hdigit (List.mem_append_right _ hfraction))

theorem mem_plainText {x : Float32} {c : Char} (h : c ∈ (plainText x).toList) :
    c.isDigit = true ∨ c ∈ ['-', '.', 'N', 'a', 'i', 'n', 'f'] := by
  have hsigned {negative : Bool} {text : List Char} (hc : c ∈ signed negative text) :
      c = '-' ∨ c ∈ text := by
    cases negative
    · exact .inr hc
    · exact List.mem_cons.1 hc
  have hdecimal {d : Decimal} (hc : c ∈ d.text .plain) : c.isDigit = true ∨ c = '.' :=
    mem_positional hc
  rw [plainText, text, String.toList_ofList] at h
  unfold Parts.text at h
  split at h
  · grind
  · grind
  · grind
  · grind

end Scalar

namespace TensorSize

theorem delimited_text (ending : String) {c : Char} {rest : List Char}
    (he : ending.toList = c :: rest) (hc : c.isDigit = false) :
    Delimited (fun _ : TensorSize => True) fun s => s.text ++ ending := by
  have hx := delimited_number "x" rfl (by decide)
  have hall := hx.pair (hx.pair (hx.pair (delimited_number ending he hc)))
  have hparts : Function.Injective fun s : TensorSize => (s.batch, s.feature, s.y, s.x) := by
    rintro ⟨⟩ ⟨⟩ h
    simpa using h
  refine (hall.of_injective hparts fun _ _ => ⟨trivial, trivial, trivial, trivial⟩).congr ?_
  intro s
  simp only [text, String.append_assoc]

theorem not_mem_text {c : Char} (hc : c.isDigit = false) (hx : c ≠ 'x') (s : TensorSize) :
    c ∉ s.text.toList := by
  have hn := not_mem_repr hc
  simp only [text, String.toList_append, List.mem_append, hn, or_false, false_or, or_self]
  exact fun h => hx (List.mem_singleton.1 h)

end TensorSize

namespace Layout

theorem not_mem_text (l : Layout) : '<' ∉ l.text.toList := by
  have htype : '<' ∉ l.type.text.toList :=
    have hall : ∀ t ∈ ElementType.all, '<' ∉ t.text.toList := by decide
    hall l.type l.type.mem_all
  have hformat : '<' ∉ l.format.text.toList := by cases l.format <;> decide
  have hsize (s : TensorSize) : '<' ∉ s.text.toList := s.not_mem_text rfl (by decide)
  have hfill : '<' ∉ (Scalar.plainText l.padding.fill).toList := by
    intro h
    rcases Scalar.mem_plainText h with hdigit | hsign
    · exact absurd hdigit (by decide)
    · exact absurd hsign (by decide)
  unfold text
  split <;> simp [htype, hformat, hsize, hfill]

theorem blank_mem_text (l : Layout) : ' ' ∈ l.text.toList := by
  unfold text
  split <;> simp

theorem map_text_eq_of_getD_eq {a b : Option Layout}
    (h : (a.map text).getD "?" = (b.map text).getD "?") : a.map text = b.map text := by
  have hne (l : Layout) : l.text ≠ "?" := by
    intro he
    have hblank := l.blank_mem_text
    rw [he] at hblank
    exact absurd hblank (by decide)
  cases a with
  | none =>
    cases b with
    | none => rfl
    | some m => exact absurd h.symm (hne m)
  | some l =>
    cases b with
    | none => exact absurd h (hne l)
    | some m => exact congrArg some h

end Layout

namespace Padding

/-- What is added before and after; nothing is written where nothing is added. -/
def sides? (p : Padding) : Option String :=
  if p.isNone then Option.none else some (p.lower.text ++ " / " ++ p.upper.text)

theorem not_mem_sides {p : Padding} {sides : String} (h : p.sides? = some sides) :
    '<' ∉ sides.toList := by
  have hsize (s : TensorSize) : '<' ∉ s.text.toList := s.not_mem_text rfl (by decide)
  unfold sides? at h
  split at h
  · cases h
  · cases h
    simp [hsize]

theorem eq_zero_of_isNone {p : Padding} (h : p.isNone = true) :
    p.lower = .zero ∧ p.upper = .zero := by
  simpa [isNone] using h

theorem eq_of_sides_eq {p q : Padding} (h : p.sides? = q.sides?) :
    p.lower = q.lower ∧ p.upper = q.upper := by
  unfold sides? at h
  split at h <;> split at h
  · next hp hq =>
    rw [(eq_zero_of_isNone hp).1, (eq_zero_of_isNone hp).2]
    exact ⟨(eq_zero_of_isNone hq).1.symm, (eq_zero_of_isNone hq).2.symm⟩
  · cases h
  · cases h
  · have hboth := (TensorSize.delimited_text " / " rfl (by decide)).pair
      (TensorSize.delimited_text "\n" rfl (by decide))
    -- The end of the text takes the place of what follows it in a table.
    have hends := congrArg (· ++ "\n") (Option.some.inj h)
    simp only [String.append_assoc] at hends
    exact Prod.mk.inj (hboth.eq (x := (p.lower, p.upper)) (y := (q.lower, q.upper))
      ⟨trivial, trivial⟩ ⟨trivial, trivial⟩ (by simpa only [String.append_assoc] using hends))

end Padding

end InferenceGraph
