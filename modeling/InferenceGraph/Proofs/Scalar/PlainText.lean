import InferenceGraph.Proofs.Layout.Text
import InferenceGraph.Proofs.Scalar
import InferenceGraph.Proofs.Scalar.Shortest
import Mathlib.Data.List.TakeWhile

set_option autoImplicit false

namespace InferenceGraph.Scalar

open Float.Model Float.Model.UnpackedFloat

/-- All digits as one number, over a power of ten for those after the point. -/
def textValue (text : List Char) : ℚ :=
  Nat.ofDigitChars 10 (text.filter (· ≠ '.')) 0 / 10 ^ (text.dropWhile (· ≠ '.')).tail.length

theorem ne_point_of_isDigit {c : Char} (h : c.isDigit = true) : c ≠ '.' := by
  rintro rfl
  cases h

theorem filter_ne_point {text : List Char} (h : ∀ c ∈ text, c.isDigit = true) :
    text.filter (· ≠ '.') = text :=
  List.filter_eq_self.2 fun c hc => by simpa using ne_point_of_isDigit (h c hc)

theorem textValue_whole {whole : List Char} (h : ∀ c ∈ whole, c.isDigit = true) :
    textValue whole = Nat.ofDigitChars 10 whole 0 := by
  have hdrop : whole.dropWhile (· ≠ '.') = [] :=
    List.dropWhile_eq_nil_iff.2 fun c hc => by simpa using ne_point_of_isDigit (h c hc)
  rw [textValue, filter_ne_point h, hdrop]
  simp

theorem textValue_point {whole fraction : List Char} (hw : ∀ c ∈ whole, c.isDigit = true)
    (hf : ∀ c ∈ fraction, c.isDigit = true) : textValue (whole ++ '.' :: fraction) =
      Nat.ofDigitChars 10 (whole ++ fraction) 0 / 10 ^ fraction.length := by
  have hdrop : (whole ++ '.' :: fraction).dropWhile (· ≠ '.') = '.' :: fraction := by
    rw [List.dropWhile_append_of_pos fun c hc => by simpa using ne_point_of_isDigit (hw c hc)]
    simp
  rw [textValue, hdrop, List.filter_append, List.filter_cons_of_neg (by simp), filter_ne_point hw,
    filter_ne_point hf, List.tail_cons]

theorem ofDigitChars_append_zeros (digits : List Char) (n : Nat) :
    Nat.ofDigitChars 10 (digits ++ zeros n) 0 = 10 ^ n * Nat.ofDigitChars 10 digits 0 := by
  rw [zeros, Nat.ofDigitChars_append, Nat.ofDigitChars_replicate_zero]

theorem value_placed (digits : List Char) (point : Int) :
    (Nat.ofDigitChars 10 ((placed digits point).1 ++ (placed digits point).2) 0 : ℚ) /
        10 ^ (placed digits point).2.length =
      Nat.ofDigitChars 10 digits 0 * 10 ^ (point - digits.length) := by
  unfold placed
  split
  · next hpoint =>
    have hzeros : Nat.ofDigitChars 10 (['0'] ++ (zeros (-point).toNat ++ digits)) 0 =
        Nat.ofDigitChars 10 digits 0 := by
      rw [Nat.ofDigitChars_append, Nat.ofDigitChars_append, zeros, Nat.ofDigitChars_replicate_zero]
      simp [Nat.ofDigitChars_cons]
    have hlength : point - digits.length = -((zeros (-point).toNat ++ digits).length : Int) := by
      simp only [zeros, List.length_append, List.length_replicate]
      omega
    rw [hzeros, hlength, zpow_neg, zpow_natCast, div_eq_mul_inv]
  · next hpoint =>
    -- The point stands behind the digits or among them.
    dsimp only
    obtain ⟨n, rfl⟩ := Int.eq_ofNat_of_zero_le (Int.le_of_lt (Int.not_le.1 hpoint))
    rw [Int.toNat_natCast]
    rcases Nat.le_total digits.length n with hle | hle
    · rw [List.take_of_length_le hle, List.drop_eq_nil_of_le hle, List.append_nil,
        ofDigitChars_append_zeros]
      have hlength : (n : Int) - digits.length = (n - digits.length : Nat) := by omega
      rw [hlength, zpow_natCast]
      push_cast
      simp [mul_comm]
    · have hnone : zeros (n - digits.length) = [] := by
        rw [Nat.sub_eq_zero_of_le hle]
        rfl
      have hlength : (n : Int) - digits.length = -((digits.drop n).length : Int) := by
        rw [List.length_drop]
        omega
      rw [hnone, List.append_nil, List.take_append_drop, hlength, zpow_neg, zpow_natCast,
        div_eq_mul_inv]

theorem textValue_positional (d : Decimal) : textValue (d.positional false) = d.value := by
  have hdigit : ∀ c : Char, c ∈ _ → c.isDigit = true := fun c =>
    isDigit_of_mem_placed (fun _ hm => isDigit_of_mem_digitChars (n := d.digits) hm)
      ((digitChars d.digits).length + d.exponent)
  have hvalue := value_placed (digitChars d.digits) ((digitChars d.digits).length + d.exponent)
  rw [add_sub_cancel_left, digitChars, Nat.ofDigitChars_ten_toDigits] at hvalue
  rw [Decimal.value, ← hvalue]
  unfold Decimal.positional
  dsimp only [digitChars] at hdigit ⊢
  split
  · next whole heq =>
    rw [heq] at hdigit ⊢
    simpa using textValue_whole fun c hc => hdigit c (List.mem_append_left _ hc)
  · next whole fraction _ heq =>
    rw [heq] at hdigit ⊢
    exact textValue_point (fun c hc => hdigit c (List.mem_append_left _ hc))
      fun c hc => hdigit c (List.mem_append_right _ hc)

theorem Finite.sound_small {m : Nat} (hpos : 0 < m) (hlt : m < 0x800000) :
    Finite.Sound ⟨m, -149, false⟩ := by
  constructor <;> simp <;> omega

theorem Finite.sound_leading {m field : Nat} (hm : m < 0x800000) (hf : 0 < field) :
    Finite.Sound ⟨0x800000 + m, (field : Int) - 150, m = 0 && 1 < field⟩ := by
  constructor <;> simp <;> omega

namespace Parts

def Sound : Parts → Prop
  | .finite _ x => x.Sound
  | _ => True

theorem sound_partsOfBits (bits : Nat) : (partsOfBits bits).Sound := by
  have hfraction : bits % 0x800000 < 0x800000 := Nat.mod_lt _ (by decide)
  unfold partsOfBits
  dsimp only
  split
  · split <;> trivial
  · split
    · split
      · trivial
      · next h => exact Finite.sound_small (Nat.pos_of_ne_zero h) hfraction
    · next h => exact Finite.sound_leading hfraction (Nat.pos_of_ne_zero h)

def isNegative : Parts → Bool
  | .notANumber => false
  | .infinite negative => negative
  | .zero negative => negative
  | .finite negative _ => negative

theorem not_mem_decimal {c : Char} (hc : c.isDigit = false) (hp : c ≠ '.') (d : Decimal) :
    c ∉ d.text .plain := by
  intro h
  rcases mem_positional h with hd | rfl
  · simp [hc] at hd
  · exact hp rfl

section Characters

variable (a : Parts)

theorem mem_text_capital : 'N' ∈ a.text .plain ↔ a = .notANumber := by
  have hd := not_mem_decimal (c := 'N') rfl (by decide)
  rcases a with _ | (_ | _) | (_ | _) | ⟨(_ | _), x⟩ <;> simp [text, signed, hd]

theorem mem_text_infinite : 'i' ∈ a.text .plain ↔ ∃ negative, a = .infinite negative := by
  have hd := not_mem_decimal (c := 'i') rfl (by decide)
  rcases a with _ | (_ | _) | (_ | _) | ⟨(_ | _), x⟩ <;> simp [text, signed, hd]

theorem mem_text_sign : '-' ∈ a.text .plain ↔ a.isNegative = true := by
  have hd := not_mem_decimal (c := '-') rfl (by decide)
  rcases a with _ | (_ | _) | (_ | _) | ⟨(_ | _), x⟩ <;> simp [text, signed, hd, isNegative]

end Characters

theorem signed_injective (negative : Bool) : Function.Injective (signed negative) := by
  intro a b h
  cases negative
  · exact h
  · exact (List.cons.inj h).2

theorem value_eq_of_text_eq {d d' : Decimal} (h : d.text .plain = d'.text .plain) :
    d.value = d'.value := by
  rw [← textValue_positional d, ← textValue_positional d']
  exact congrArg textValue h

theorem text_ne_zero {x : Finite} (hx : x.Sound) :
    x.shortest.text .plain ≠ Decimal.text ⟨0, 0⟩ .plain := by
  intro h
  have hpos := hx.low_pos.trans_le hx.rounds_shortest.low_le
  rw [value_eq_of_text_eq h] at hpos
  simp [Decimal.value] at hpos

theorem text_injective {a b : Parts} (ha : a.Sound) (hb : b.Sound)
    (h : a.text .plain = b.text .plain) : a = b := by
  have hcapital := a.mem_text_capital
  have hinfinite := a.mem_text_infinite
  have hsign := a.mem_text_sign
  rw [h, b.mem_text_capital] at hcapital
  rw [h, b.mem_text_infinite] at hinfinite
  rw [h, b.mem_text_sign, Bool.coe_iff_coe] at hsign
  cases a with
  | notANumber => exact (hcapital.2 rfl).symm
  | infinite negative =>
    obtain ⟨negative', rfl⟩ := hinfinite.2 ⟨negative, rfl⟩
    rw [show negative' = negative from hsign]
  | zero negative =>
    cases b with
    | notANumber => cases hcapital.1 rfl
    | infinite negative' =>
      obtain ⟨_, hn⟩ := hinfinite.1 ⟨negative', rfl⟩
      cases hn
    | zero negative' => rw [show negative' = negative from hsign]
    | finite negative' y =>
      obtain rfl : negative' = negative := hsign
      exact absurd (signed_injective _ h).symm (text_ne_zero hb)
  | finite negative x =>
    cases b with
    | notANumber => cases hcapital.1 rfl
    | infinite negative' =>
      obtain ⟨_, hn⟩ := hinfinite.1 ⟨negative', rfl⟩
      cases hn
    | zero negative' =>
      obtain rfl : negative' = negative := hsign
      exact absurd (signed_injective _ h) (text_ne_zero ha)
    | finite negative' y =>
      -- Both round from the number that the one text is read back as.
      obtain rfl : negative' = negative := hsign
      have hx : x.Rounds x.shortest.value := Finite.Sound.rounds_shortest ha
      rw [value_eq_of_text_eq (signed_injective _ h)] at hx
      rw [hx.unique ha hb (Finite.Sound.rounds_shortest hb)]

end Parts

/-- The bits that give these parts, the usual ones for what is not a number. -/
def Parts.bits : Parts → Nat
  | .notANumber => 0x7fc00000
  | .infinite negative => (if negative then 0x80000000 else 0) + 0x7f800000
  | .zero negative => if negative then 0x80000000 else 0
  | .finite negative x => (if negative then 0x80000000 else 0) +
      if x.mantissa < 0x800000 then x.mantissa
      else (x.exponent + 150).toNat * 0x800000 + (x.mantissa - 0x800000)

theorem bits_partsOfBits {n : Nat} (hlt : n < 0x100000000)
    (hnan : n / 0x800000 % 0x100 = 255 → n % 0x800000 ≠ 0 → n = 0x7fc00000) :
    (partsOfBits n).bits = n := by
  have hsign : (if decide (0x80000000 ≤ n) = true then 0x80000000 else 0) +
      n % 0x80000000 = n := by
    by_cases h : 0x80000000 ≤ n
    · rw [decide_eq_true h, if_pos rfl]
      omega
    · rw [decide_eq_false h, if_neg Bool.false_ne_true]
      omega
  unfold partsOfBits
  dsimp only
  split
  · split
    · simp only [Parts.bits]
      omega
    · next hexp hman => exact (hnan hexp hman).symm
  · split
    · split
      · simp only [Parts.bits]
        omega
      · simp only [Parts.bits]
        rw [if_pos (show n % 0x800000 < 0x800000 by omega)]
        omega
    · simp only [Parts.bits]
      rw [if_neg (show ¬ 0x800000 + n % 0x800000 < 0x800000 by omega)]
      omega

theorem bits_parts (x : Float32) : (parts x).bits = x.toBits.toNat := by
  refine bits_partsOfBits x.toBits.toNat_lt fun hexp hman => ?_
  have hvalid := x.toModel.valid.eq_packedNaN
  have he := toNat_unpackExponent x.toBits.toBitVec
  have hm := toNat_unpackMantissa x.toBits.toBitVec
  have hpacked := hvalid (BitVec.toNat_inj.1 (he.trans hexp)) fun hzero =>
    hman (hm.symm.trans (congrArg BitVec.toNat hzero))
  change x.toBits.toBitVec.toNat = _
  rw [show x.toBits.toBitVec = _ from hpacked]
  rfl

theorem parts_injective : Function.Injective parts := by
  intro x y h
  have hn : x.toBits = y.toBits := UInt32.toNat_inj.1 <| by
    rw [← bits_parts x, ← bits_parts y, h]
  obtain ⟨⟨_, _⟩⟩ := x
  obtain ⟨⟨_, _⟩⟩ := y
  cases hn
  rfl

/-- Running text tells numbers apart, and zeros by their signs. -/
theorem plainText_injective : Function.Injective plainText := by
  intro x y h
  rw [plainText, plainText, text, text] at h
  exact parts_injective (Parts.text_injective (Parts.sound_partsOfBits _)
    (Parts.sound_partsOfBits _) (String.ofList_injective h))

end InferenceGraph.Scalar
