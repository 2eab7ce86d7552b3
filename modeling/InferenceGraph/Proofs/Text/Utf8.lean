import InferenceGraph.Proofs.Sequence
import InferenceGraph.Text.Utf8
import Mathlib.Algebra.Group.Nat.Defs

/-!
# Spelling and reading a text

The bytes after the first one of a character hold six bits each. Between two bytes the reader knows
the high bits of a code point and which bits may come next (`Pending.Admits`); so what it accepts
is the spelling of one code point, and every spelling is accepted. Reading a text and spelling it
undo each other.
-/

set_option autoImplicit false

namespace InferenceGraph.Text.Utf8

/-- The last bytes of the spelling of a code point, six bits in each. -/
def tail : Nat → Nat → List UInt8
  | 0, _ => []
  | n + 1, v => UInt8.ofNat (0x80 + v / 64 ^ n % 64) :: tail n v

/-- The code point begins with the bits read so far, and its next bits are within the bounds. -/
structure Pending.Admits (p : Pending) (v : Nat) : Prop where
  value : v / 64 ^ p.missing = p.value
  low : p.low ≤ 0x80 + v / 64 ^ (p.missing - 1) % 64
  high : 0x80 + v / 64 ^ (p.missing - 1) % 64 ≤ p.high

structure Pending.Proper (p : Pending) : Prop where
  missing : 0 < p.missing
  low : 0x80 ≤ p.low
  high : p.high ≤ 0xbf

variable {p : Pending} {v : Nat}

theorem toNat_ofNat_continuation (n : Nat) :
    (UInt8.ofNat (0x80 + n % 64)).toNat = 0x80 + n % 64 := by
  rw [UInt8.toNat_ofNat']
  omega

theorem div_pow_succ (v n : Nat) : v / 64 ^ (n + 1) = v / 64 ^ n / 64 := by
  rw [Nat.pow_succ, Nat.div_div_eq_div_mul]

theorem step_of_admits {n : Nat} (hm : p.missing = n + 1) (h : p.Admits v) :
    step (some p) (0x80 + v / 64 ^ n % 64) =
      if n = 0 then ([some (Char.ofNat v)], none) else ([], some ⟨v / 64 ^ n, n, 0x80, 0xbf⟩) := by
  have hv := h.value
  have hl := h.low
  have hh := h.high
  simp only [hm, Nat.add_sub_cancel] at hv hl hh
  rw [div_pow_succ] at hv
  have hvalue : p.value * 64 + (0x80 + v / 64 ^ n % 64 - 0x80) = v / 64 ^ n := by omega
  simp only [step, hl, hh, and_self, if_true, hvalue, hm, Nat.add_sub_cancel]
  by_cases hn : n = 0
  · subst hn
    simp
  · simp [hn]

theorem partsFrom_tail {n : Nat} (hm : p.missing = n + 1) (h : p.Admits v) (rest : List UInt8) :
    partsFrom (some p) (tail (n + 1) v ++ rest) = some (Char.ofNat v) :: partsFrom none rest := by
  induction n generalizing p with
  | zero =>
    rw [tail, List.cons_append, partsFrom, toNat_ofNat_continuation, step_of_admits hm h]
    rfl
  | succ n ih =>
    have hp : Pending.Admits ⟨v / 64 ^ (n + 1), n + 1, 0x80, 0xbf⟩ v :=
      ⟨rfl, by dsimp; omega, by dsimp; omega⟩
    rw [tail, List.cons_append, partsFrom, toNat_ofNat_continuation, step_of_admits hm h]
    exact ih rfl hp

theorem admits_of_step {n : Nat} {b : UInt8} (hp : p.Proper) (hm : p.missing = n + 1)
    (hl : p.low ≤ b.toNat) (hh : b.toNat ≤ p.high)
    (hv : v / 64 ^ n = p.value * 64 + (b.toNat - 0x80)) :
    p.Admits v ∧ UInt8.ofNat (0x80 + v / 64 ^ n % 64) = b := by
  have hpl := hp.low
  have hph := hp.high
  have hb : 0x80 + v / 64 ^ n % 64 = b.toNat := by omega
  refine ⟨⟨?_, ?_, ?_⟩, ?_⟩
  · rw [hm, div_pow_succ, hv]
    omega
  · rwa [hm, Nat.add_sub_cancel, hb]
  · rwa [hm, Nat.add_sub_cancel, hb]
  · rw [hb, UInt8.ofNat_toNat]

theorem exists_within {bytes : List UInt8} (h : none ∉ partsFrom (some p) bytes) :
    ∃ b rest, bytes = b :: rest ∧ p.low ≤ b.toNat ∧ b.toNat ≤ p.high := by
  cases bytes with
  | nil => simp [partsFrom] at h
  | cons b rest =>
    by_cases hb : p.low ≤ b.toNat ∧ b.toNat ≤ p.high
    · exact ⟨b, rest, rfl, hb⟩
    · simp [partsFrom, step, hb] at h

theorem exists_tail {n : Nat} (hm : p.missing = n + 1) (hp : p.Proper) {bytes : List UInt8}
    (h : none ∉ partsFrom (some p) bytes) :
    ∃ v rest, p.Admits v ∧ bytes = tail (n + 1) v ++ rest := by
  induction n generalizing p bytes with
  | zero =>
    obtain ⟨b, rest, rfl, hl, hh⟩ := exists_within h
    obtain ⟨ha, hb⟩ := admits_of_step hp hm hl hh (v := p.value * 64 + (b.toNat - 0x80)) (by simp)
    exact ⟨_, rest, ha, by rw [tail, hb]; rfl⟩
  | succ n ih =>
    obtain ⟨b, rest, rfl, hl, hh⟩ := exists_within h
    have hs : step (some p) b.toNat =
        ([], some ⟨p.value * 64 + (b.toNat - 0x80), n + 1, 0x80, 0xbf⟩) := by
      simp [step, hl, hh, hm]
    rw [partsFrom, hs] at h
    obtain ⟨v, rest, hv, rfl⟩ := ih rfl ⟨Nat.succ_pos n, by simp, by simp⟩ h
    obtain ⟨ha, hb⟩ := admits_of_step hp hm hl hh hv.value
    exact ⟨v, rest, ha, by conv_rhs => rw [tail, hb, List.cons_append]⟩

/-- The three lengths of a spelling above the single-byte range. Only at the ends of a range, and
before the surrogates, the next byte is bounded further. -/
theorem lead?_cases {b : Nat} (h : lead? b = some p) :
    (p.missing = 1 ∧ p.value + 0xc0 = b ∧ b ≤ 0xdf ∧ p.low = 0x80 ∧ p.high = 0xbf) ∨
    (p.missing = 2 ∧ p.value + 0xe0 = b ∧ b ≤ 0xef ∧
      (b = 0xe0 → p.low = 0xa0) ∧ (b ≠ 0xe0 → p.low = 0x80) ∧
      (b = 0xed → p.high = 0x9f) ∧ (b ≠ 0xed → p.high = 0xbf)) ∨
    (p.missing = 3 ∧ p.value + 0xf0 = b ∧ b ≤ 0xf4 ∧
      (b = 0xf0 → p.low = 0x90) ∧ (b ≠ 0xf0 → p.low = 0x80) ∧
      (b = 0xf4 → p.high = 0x8f) ∧ (b ≠ 0xf4 → p.high = 0xbf)) := by
  unfold lead? at h
  repeat' split at h
  all_goals grind

theorem exists_lead?_iff {b : Nat} : (∃ p, lead? b = some p) ↔ 0xc2 ≤ b ∧ b ≤ 0xf4 := by
  unfold lead?
  repeat' split
  all_goals grind

theorem proper_of_lead? {b : Nat} (h : lead? b = some p) : p.Proper := by
  rcases lead?_cases h with hb | hb | hb <;> constructor <;> omega

theorem utf8EncodeChar_eq (c : Char) : String.utf8EncodeChar c =
    if c.toNat < 0x80 then [UInt8.ofNat c.toNat]
    else if c.toNat < 0x800 then UInt8.ofNat (0xc0 + c.toNat / 64 ^ 1) :: tail 1 c.toNat
    else if c.toNat < 0x10000 then UInt8.ofNat (0xe0 + c.toNat / 64 ^ 2) :: tail 2 c.toNat
    else UInt8.ofNat (0xf0 + c.toNat / 64 ^ 3) :: tail 3 c.toNat := by
  have hc : c.val.toNat < 0x110000 := by
    have hv := c.valid
    unfold UInt32.isValidChar Nat.isValidChar at hv
    omega
  simp only [String.utf8EncodeChar, tail, Char.toNat]
  split_ifs
  any_goals omega
  · rfl
  · rw [show c.val.toNat / 64 % 32 + 192 = 0xc0 + c.val.toNat / 64 ^ 1 by omega,
      show c.val.toNat % 64 + 128 = 0x80 + c.val.toNat / 64 ^ 0 % 64 by omega]
  · rw [show c.val.toNat / 4096 % 16 + 224 = 0xe0 + c.val.toNat / 64 ^ 2 by omega,
      show c.val.toNat / 64 % 64 + 128 = 0x80 + c.val.toNat / 64 ^ 1 % 64 by omega,
      show c.val.toNat % 64 + 128 = 0x80 + c.val.toNat / 64 ^ 0 % 64 by omega]
  · rw [show c.val.toNat / 262144 % 8 + 240 = 0xf0 + c.val.toNat / 64 ^ 3 by omega,
      show c.val.toNat / 4096 % 64 + 128 = 0x80 + c.val.toNat / 64 ^ 2 % 64 by omega,
      show c.val.toNat / 64 % 64 + 128 = 0x80 + c.val.toNat / 64 ^ 1 % 64 by omega,
      show c.val.toNat % 64 + 128 = 0x80 + c.val.toNat / 64 ^ 0 % 64 by omega]

theorem toNat_ofNat_of_valid (h : v.isValidChar) : (Char.ofNat v).toNat = v := by
  rw [Char.ofNat, dif_pos h]
  rfl

theorem isValidChar_of_admits {b : Nat} (h : lead? b = some p) (ha : p.Admits v) :
    v.isValidChar := by
  have hb := exists_lead?_iff.1 ⟨p, h⟩
  obtain ⟨hv, hl, hh⟩ := ha
  unfold Nat.isValidChar
  rcases lead?_cases h with ⟨hm, hp⟩ | ⟨hm, hp⟩ | ⟨hm, hp⟩ <;> rw [hm] at hv hl hh <;> omega

theorem spelling_of_lead? {b : UInt8} (h : lead? b.toNat = some p) (ha : p.Admits v) :
    String.utf8EncodeChar (Char.ofNat v) = b :: tail p.missing v := by
  have hb := exists_lead?_iff.1 ⟨p, h⟩
  rw [utf8EncodeChar_eq, toNat_ofNat_of_valid (isValidChar_of_admits h ha)]
  obtain ⟨hv, hl, hh⟩ := ha
  rcases lead?_cases h with ⟨hm, hp⟩ | ⟨hm, hp⟩ | ⟨hm, hp⟩ <;> rw [hm] at hv hl hh ⊢
  · rw [if_neg (by omega), if_pos (by omega), show 0xc0 + v / 64 ^ 1 = b.toNat by omega,
      UInt8.ofNat_toNat]
  · rw [if_neg (by omega), if_neg (by omega), if_pos (by omega),
      show 0xe0 + v / 64 ^ 2 = b.toNat by omega, UInt8.ofNat_toNat]
  · rw [if_neg (by omega), if_neg (by omega), if_neg (by omega),
      show 0xf0 + v / 64 ^ 3 = b.toNat by omega, UInt8.ofNat_toNat]

theorem exists_lead?_ofNat {b : Nat} (hl : 0xc2 ≤ b) (hh : b ≤ 0xf4) :
    ∃ p, lead? (UInt8.ofNat b).toNat = some p ∧ lead? b = some p := by
  have hb : (UInt8.ofNat b).toNat = b := by
    rw [UInt8.toNat_ofNat']
    omega
  obtain ⟨p, hp⟩ := exists_lead?_iff.2 ⟨hl, hh⟩
  exact ⟨p, hb.symm ▸ hp, hp⟩

theorem exists_lead (c : Char) (h : ¬ c.toNat < 0x80) :
    ∃ b p, lead? (UInt8.toNat b) = some p ∧ p.Admits c.toNat ∧
      String.utf8EncodeChar c = b :: tail p.missing c.toNat := by
  have hc : c.toNat.isValidChar := c.valid
  unfold Nat.isValidChar at hc
  rw [utf8EncodeChar_eq, if_neg h]
  by_cases h₁ : c.toNat < 0x800
  · obtain ⟨p, hp, hb⟩ := exists_lead?_ofNat (b := 0xc0 + c.toNat / 64 ^ 1) (by omega) (by omega)
    have hb := lead?_cases hb
    have hm : p.missing = 1 := by omega
    rw [if_pos h₁]
    exact ⟨_, p, hp, ⟨by rw [hm]; omega, by rw [hm]; omega, by rw [hm]; omega⟩, by rw [hm]⟩
  rw [if_neg h₁]
  by_cases h₂ : c.toNat < 0x10000
  · obtain ⟨p, hp, hb⟩ := exists_lead?_ofNat (b := 0xe0 + c.toNat / 64 ^ 2) (by omega) (by omega)
    have hb := lead?_cases hb
    have hm : p.missing = 2 := by omega
    rw [if_pos h₂]
    exact ⟨_, p, hp, ⟨by rw [hm]; omega, by rw [hm]; omega, by rw [hm]; omega⟩, by rw [hm]⟩
  · obtain ⟨p, hp, hb⟩ := exists_lead?_ofNat (b := 0xf0 + c.toNat / 64 ^ 3) (by omega) (by omega)
    have hb := lead?_cases hb
    have hm : p.missing = 3 := by omega
    rw [if_neg h₂]
    exact ⟨_, p, hp, ⟨by rw [hm]; omega, by rw [hm]; omega, by rw [hm]; omega⟩, by rw [hm]⟩

theorem partsFrom_utf8EncodeChar (c : Char) (rest : List UInt8) :
    partsFrom none (String.utf8EncodeChar c ++ rest) = some c :: partsFrom none rest := by
  by_cases h : c.toNat < 0x80
  · have hb : (UInt8.ofNat c.toNat).toNat = c.toNat := by
      rw [UInt8.toNat_ofNat']
      omega
    rw [utf8EncodeChar_eq, if_pos h, List.singleton_append, partsFrom, hb, step, begin, if_pos h,
      Char.ofNat_toNat]
    rfl
  · obtain ⟨b, p, hp, ha, hc⟩ := exists_lead c h
    obtain ⟨n, hn⟩ := Nat.exists_eq_add_one.2 (proper_of_lead? hp).missing
    have hb := exists_lead?_iff.1 ⟨p, hp⟩
    rw [hc, List.cons_append, partsFrom, step, begin, if_neg (by omega), hp, hn]
    exact (partsFrom_tail hn ha rest).trans (by rw [Char.ofNat_toNat])

theorem exists_utf8EncodeChar {b : UInt8} {rest : List UInt8}
    (h : none ∉ parts (b :: rest)) :
    ∃ c rest', b :: rest = String.utf8EncodeChar c ++ rest' := by
  by_cases hb : b.toNat < 0x80
  · have hc : (Char.ofNat b.toNat).toNat = b.toNat := toNat_ofNat_of_valid (.inl (by omega))
    refine ⟨Char.ofNat b.toNat, rest, ?_⟩
    rw [utf8EncodeChar_eq, hc, if_pos hb, UInt8.ofNat_toNat, List.singleton_append]
  · cases hp : lead? b.toNat with
    | none => simp [parts, partsFrom, step, begin, hb, hp] at h
    | some p =>
      obtain ⟨n, hn⟩ := Nat.exists_eq_add_one.2 (proper_of_lead? hp).missing
      rw [parts, partsFrom, step, begin, if_neg hb, hp] at h
      obtain ⟨v, rest', ha, rfl⟩ := exists_tail hn (proper_of_lead? hp) h
      refine ⟨Char.ofNat v, rest', ?_⟩
      rw [spelling_of_lead? hp ha, hn, List.cons_append]

theorem encode_eq (s : String) : encode s = s.toList.flatMap String.utf8EncodeChar := by
  rw [encode, String.toUTF8, ← String.utf8Encode_toList, List.utf8Encode]
  simp

theorem parts_utf8EncodeChar (c : Char) (rest : List UInt8) :
    parts (String.utf8EncodeChar c ++ rest) = some c :: parts rest :=
  partsFrom_utf8EncodeChar c rest

theorem parts_eq_map_some_iff {bytes : List UInt8} {cs : List Char} :
    parts bytes = cs.map some ↔ cs.flatMap String.utf8EncodeChar = bytes := by
  induction cs generalizing bytes with
  | nil =>
    cases bytes with
    | nil => simp [parts, partsFrom]
    | cons b rest =>
      refine ⟨fun h => ?_, fun h => by simp at h⟩
      have hn : none ∉ parts (b :: rest) := by simp [h]
      obtain ⟨c, rest', hc⟩ := exists_utf8EncodeChar hn
      rw [hc, parts_utf8EncodeChar] at h
      simp at h
  | cons c cs ih =>
    rw [List.flatMap_cons]
    constructor
    · intro h
      cases bytes with
      | nil => simp [parts, partsFrom] at h
      | cons b rest =>
        have hn : none ∉ parts (b :: rest) := by simp [h]
        obtain ⟨c', rest', hc⟩ := exists_utf8EncodeChar hn
        rw [hc, parts_utf8EncodeChar, List.map_cons, List.cons.injEq] at h
        rw [hc, ih.1 h.2, Option.some.inj h.1]
    · rintro rfl
      rw [parts_utf8EncodeChar, List.map_cons, ih.2 rfl]

/-- The bytes that are read as a text are those that spell it. -/
theorem decode?_eq_some_iff {bytes : List UInt8} {s : String} :
    decode? bytes = some s ↔ encode s = bytes := by
  rw [decode?, Option.map_eq_some_iff, encode_eq]
  constructor
  · rintro ⟨cs, hcs, rfl⟩
    rw [mapM_option_eq_some_iff, List.map_id] at hcs
    rw [String.toList_ofList, ← parts_eq_map_some_iff, hcs]
  · intro h
    refine ⟨s.toList, ?_, String.ofList_toList⟩
    rw [mapM_option_eq_some_iff, List.map_id, parts_eq_map_some_iff, h]

theorem zero_notMem_tail (n v : Nat) : 0 ∉ tail n v := by
  induction n with
  | zero => simp [tail]
  | succ n ih =>
    have hb : 0 ≠ UInt8.ofNat (0x80 + v / 64 ^ n % 64) := fun h => by
      have hn := congrArg UInt8.toNat h
      rw [toNat_ofNat_continuation, UInt8.toNat_zero] at hn
      omega
    simp only [tail, List.mem_cons, not_or]
    exact ⟨hb, ih⟩

theorem eq_zero_of_mem_utf8EncodeChar {c : Char} (h : 0 ∈ String.utf8EncodeChar c) :
    c = '\x00' := by
  by_cases hc : c.toNat < 0x80
  · rw [utf8EncodeChar_eq, if_pos hc, List.mem_singleton] at h
    have hn := congrArg UInt8.toNat h
    rw [UInt8.toNat_ofNat', UInt8.toNat_zero] at hn
    have hz : c.toNat = 0 := by omega
    rw [← Char.ofNat_toNat c, hz]
  · obtain ⟨b, p, hp, -, hs⟩ := exists_lead c hc
    have hb := exists_lead?_iff.1 ⟨p, hp⟩
    rw [hs, List.mem_cons] at h
    rcases h with rfl | h
    · simp at hb
    · exact absurd h (zero_notMem_tail _ _)

theorem zero_mem_encode_iff {s : String} : 0 ∈ encode s ↔ '\x00' ∈ s.toList := by
  rw [encode_eq, List.mem_flatMap]
  constructor
  · rintro ⟨c, hc, h0⟩
    exact eq_zero_of_mem_utf8EncodeChar h0 ▸ hc
  · intro h
    exact ⟨'\x00', h, by decide⟩

theorem zero_notMem_encode {s : String} (h : '\x00' ∉ s.toList) : 0 ∉ encode s :=
  mt zero_mem_encode_iff.1 h

@[simp] theorem encode_eq_nil_iff {s : String} : encode s = [] ↔ s = "" := by
  constructor
  · intro h
    have hs : decode? [] = some s := decode?_eq_some_iff.2 h
    exact (Option.some.inj hs).symm
  · rintro rfl
    rfl

end InferenceGraph.Text.Utf8
