import InferenceGraph.Proofs.Descriptor

/-!
# Checks of descriptors

What a reader asks of a descriptor is a list of checks in a fixed order. A reader follows its list
if it succeeds exactly when all checks hold and otherwise reports the first that does not. Readers
that run one after another follow their lists one after another, so the list of the whole is put
together as the reader is: the id, the inputs by their places, then the fields of the kind.
-/

set_option autoImplicit false

namespace InferenceGraph

structure Check where
  condition : Prop
  error : GraphError

namespace Check

def AllHold (checks : List Check) : Prop := ∀ c ∈ checks, c.condition

/-- The error is that of the first check that does not hold. -/
def FirstViolated (checks : List Check) (e : GraphError) : Prop :=
  ∃ before c after, checks = before ++ c :: after ∧ AllHold before ∧ ¬c.condition ∧ c.error = e

variable {c : Check} {cs ds : List Check} {e : GraphError}

@[simp] theorem allHold_nil : AllHold [] := List.forall_mem_nil _

@[simp] theorem allHold_cons : AllHold (c :: cs) ↔ c.condition ∧ AllHold cs := List.forall_mem_cons

@[simp] theorem allHold_append : AllHold (cs ++ ds) ↔ AllHold cs ∧ AllHold ds :=
  List.forall_mem_append

@[simp] theorem not_firstViolated_nil : ¬FirstViolated [] e := by
  rintro ⟨before, c, after, h, -⟩
  cases before <;> cases h

theorem firstViolated_cons : FirstViolated (c :: cs) e ↔
    ¬c.condition ∧ c.error = e ∨ c.condition ∧ FirstViolated cs e := by
  constructor
  · rintro ⟨before, c', after, h, hb, hc⟩
    cases before with
    | nil =>
      obtain ⟨rfl, rfl⟩ := List.cons.inj h
      exact .inl hc
    | cons b before =>
      obtain ⟨rfl, rfl⟩ := List.cons.inj h
      obtain ⟨hholds, hb⟩ := allHold_cons.1 hb
      exact .inr ⟨hholds, before, c', after, rfl, hb, hc⟩
  · rintro (hc | ⟨hholds, before, c', after, rfl, hb, hc⟩)
    · exact ⟨[], c, cs, rfl, allHold_nil, hc⟩
    · exact ⟨c :: before, c', after, rfl, allHold_cons.2 ⟨hholds, hb⟩, hc⟩

theorem firstViolated_append : FirstViolated (cs ++ ds) e ↔
    FirstViolated cs e ∨ AllHold cs ∧ FirstViolated ds e := by
  induction cs with
  | nil => simp
  | cons c cs ih =>
    rw [List.cons_append, firstViolated_cons, firstViolated_cons, ih, allHold_cons]
    tauto

end Check

open Check

section Follows

variable {α β : Type} {x : Outcome α} {f : α → Outcome β} {cs ds : List Check}

/-- The reading succeeds exactly if all checks hold, and fails with the error of the first that
does not. -/
structure Follows (x : Outcome α) (checks : List Check) : Prop where
  ok : (∃ a, x = .ok a) ↔ AllHold checks
  error : ∀ failure, x = .error failure ↔ ∃ e, failure = .error e ∧ FirstViolated checks e

theorem follows_nil (h : ∃ a, x = .ok a) : Follows x [] := by
  obtain ⟨a, rfl⟩ := h
  constructor <;> simp

theorem follows_cons {c : Check} (hn : ¬c.condition → x = .fail c.error)
    (hp : c.condition → Follows x cs) : Follows x (c :: cs) := by
  by_cases hc : c.condition
  · constructor
    · rw [(hp hc).ok, allHold_cons, and_iff_right hc]
    · intro failure
      simp only [(hp hc).error, firstViolated_cons, hc, not_true, false_and, true_and, false_or]
  · rw [hn hc]
    constructor <;> simp [firstViolated_cons, hc, Outcome.fail, eq_comm]

theorem Follows.bind (hx : Follows x cs) (hf : ∀ a, x = .ok a → Follows (f a) ds) :
    Follows (x >>= f) (cs ++ ds) := by
  cases hxa : x with
  | ok a =>
    have hcs := hx.ok.1 ⟨a, hxa⟩
    have hno (e : GraphError) : ¬FirstViolated cs e := fun he => by
      cases hxa.symm.trans ((hx.error _).2 ⟨e, rfl, he⟩)
    rw [ok_bind]
    constructor
    · rw [(hf a hxa).ok, allHold_append, and_iff_right hcs]
    · intro failure
      simp only [(hf a hxa).error, firstViolated_append, hno, hcs, false_or, true_and]
  | error failure =>
    have hcs : ¬AllHold cs := fun h => by
      obtain ⟨a, ha⟩ := hx.ok.2 h
      cases hxa.symm.trans ha
    rw [error_bind]
    constructor
    · simp [hcs]
    · intro failure'
      have he := hx.error failure'
      simp only [hxa, Except.error.injEq] at he
      simp only [Except.error.injEq, he, firstViolated_append, hcs, false_and, or_false]

theorem Follows.bindExcept {x : Except GraphError α} {f : α → Except GraphError β}
    (hx : Follows (Outcome.ofExcept x) cs)
    (hf : ∀ a, x = .ok a → Follows (Outcome.ofExcept (f a)) ds) :
    Follows (Outcome.ofExcept (x >>= f)) (cs ++ ds) := by
  have hb : Outcome.ofExcept (x >>= f) = Outcome.ofExcept x >>= fun a => Outcome.ofExcept (f a) := by
    cases x <;> rfl
  rw [hb]
  exact hx.bind fun a ha => hf a (Outcome.ofExcept_eq_ok_iff.1 ha)

theorem Follows.bindPure {x : Except GraphError α} {f : α → β}
    (hx : Follows (Outcome.ofExcept x) cs) :
    Follows (Outcome.ofExcept (x >>= fun a => pure (f a))) cs := by
  rw [← List.append_nil cs]
  exact hx.bindExcept fun a _ => follows_nil ⟨f a, rfl⟩

end Follows

/-- The text is there, and before its end it spells a text that is not empty. -/
def ForeignText.IsId (text : ForeignText) : Prop :=
  ∃ s : String, s ≠ "" ∧ text.cut = some (Text.Utf8.encode s)

/-- An id is there, is UTF-8 up to its end, and is not empty. -/
def ForeignText.checks (field : String) : ForeignText → List Check
  | none => [⟨False, .invalidDescriptor (.absentText field)⟩]
  | some memory =>
    let bytes := memory.takeWhile (· ≠ 0)
    [⟨∃ s, Text.Utf8.encode s = bytes,
        .invalidIdentifier ⟨Text.Utf8.decodeLenient bytes, .notUtf8⟩⟩,
      ⟨bytes ≠ [], .invalidIdentifier ⟨"", .empty⟩⟩]

theorem ForeignText.isId_iff (field : String) {text : ForeignText} :
    text.IsId ↔ AllHold (text.checks field) := by
  cases text with
  | none => simp [IsId, cut, checks]
  | some memory =>
    simp only [IsId, cut, checks, Option.map_some, Option.some.injEq, allHold_cons, allHold_nil,
      and_true]
    constructor
    · rintro ⟨s, hs, hb⟩
      refine ⟨⟨s, hb.symm⟩, ?_⟩
      rwa [hb, ne_eq, Text.Utf8.encode_eq_nil_iff]
    · rintro ⟨⟨s, hb⟩, hne⟩
      rw [← hb, ne_eq, Text.Utf8.encode_eq_nil_iff] at hne
      exact ⟨s, hne, hb.symm⟩

theorem follows_readId (field : String) (text : ForeignText) :
    Follows (Outcome.ofExcept (readId field text)) (text.checks field) := by
  cases text with
  | none => exact follows_cons (fun _ => rfl) False.elim
  | some memory =>
    -- What is read stops before the first zero, so an id is never refused for a zero character.
    have hz : 0 ∉ memory.takeWhile (· ≠ 0) := fun h => by simpa using List.mem_takeWhile_imp h
    dsimp only [ForeignText.checks, readId, PrimitiveId.ofBytes]
    generalize memory.takeWhile (· ≠ 0) = bytes at hz
    refine follows_cons ?_ ?_
    · intro hc
      have hd : Text.Utf8.decode? bytes = none := Option.eq_none_iff_forall_ne_some.2 fun s hs =>
        hc ⟨s, Text.Utf8.decode?_eq_some_iff.1 hs⟩
      rw [hd]
      rfl
    · rintro ⟨s, rfl⟩
      rw [Text.Utf8.decode?_eq_some_iff.2 rfl]
      refine follows_cons ?_ fun hne => follows_nil ?_
      · intro he
        obtain rfl := Text.Utf8.encode_eq_nil_iff.1 (not_not.1 he)
        rfl
      · rw [Text.Utf8.zero_mem_encode_iff] at hz
        have hs : s ≠ "" := mt Text.Utf8.encode_eq_nil_iff.2 hne
        have hi : PrimitiveId.ofString s = .ok ⟨s, hs, hz⟩ := PrimitiveId.ofString_text ⟨s, hs, hz⟩
        exact ⟨⟨s, hs, hz⟩, by simp only [hi, Outcome.ofExcept]⟩

def Check.code {α : Type} (vocabulary : Vocabulary) (code : α → Int32) (c : Int32) : Check :=
  ⟨∃ a, code a = c, .invalidDescriptor (.unknownCode vocabulary c)⟩

theorem follows_readCode {α : Type} {ofCode? : Int32 → Option α} {code : α → Int32}
    (hr : ∀ a, ofCode? (code a) = some a) (hw : ∀ {c a}, ofCode? c = some a → code a = c)
    (vocabulary : Vocabulary) (c : Int32) :
    Follows (Outcome.ofExcept (readCode vocabulary ofCode? c)) [.code vocabulary code c] := by
  refine follows_cons ?_ ?_
  · intro hc
    have hn : ofCode? c = none := Option.eq_none_iff_forall_ne_some.2 fun a ha => hc ⟨a, hw ha⟩
    rw [readCode, hn]
    rfl
  · rintro ⟨a, ha⟩
    exact follows_nil ⟨a, Outcome.ofExcept_eq_ok_iff.2 ((readCode_eq_ok_iff hr hw).2 ha)⟩

def textsChecks (field : String) (place : Nat) (texts : List ForeignText) : List Check :=
  (texts.zipIdx place).flatMap fun (text, i) => text.checks (field ++ "[" ++ Nat.repr i ++ "]")

theorem allHold_textsChecks {field : String} {place : Nat} {texts : List ForeignText} :
    AllHold (textsChecks field place texts) ↔ ∀ text ∈ texts, text.IsId := by
  induction texts generalizing place with
  | nil => simp [textsChecks]
  | cons text texts ih =>
    rw [textsChecks, List.zipIdx_cons, List.flatMap_cons, allHold_append, List.forall_mem_cons,
      ← ForeignText.isId_iff _]
    exact and_congr_right fun _ => ih

theorem follows_readIdsFrom (field : String) (place : Nat) (texts : List ForeignText) :
    Follows (Outcome.ofExcept (readIdsFrom field place texts)) (textsChecks field place texts) := by
  induction texts generalizing place with
  | nil => exact follows_nil ⟨[], rfl⟩
  | cons text texts ih =>
    exact (follows_readId _ text).bindExcept fun id _ => (ih (place + 1)).bindPure

/-- Of an array of size zero nothing is asked, not even that it is there. -/
def arrayChecks (field : String) (texts : Option (List ForeignText)) (size : Nat) : List Check :=
  if size = 0 then []
  else ⟨texts ≠ none, .invalidDescriptor (.absentTexts field size)⟩ ::
    textsChecks field 0 ((texts.getD []).take size)

theorem allHold_arrayChecks {field : String} {texts : Option (List ForeignText)} {size : Nat} :
    AllHold (arrayChecks field texts size) ↔ (size ≠ 0 → texts ≠ none) ∧
      ∀ ts, texts = some ts → ∀ text ∈ ts.take size, text.IsId := by
  unfold arrayChecks
  by_cases hs : size = 0
  · simp [hs]
  · rw [if_neg hs, allHold_cons, allHold_textsChecks]
    cases texts <;> simp [hs]

theorem follows_readIds {field : String} {texts : Option (List ForeignText)} {size : Nat}
    (hl : ∀ ts, texts = some ts → size ≤ ts.length) :
    Follows (readIds field texts size) (arrayChecks field texts size) := by
  unfold readIds arrayChecks
  by_cases hs : size = 0
  · rw [if_pos hs, if_pos hs]
    exact follows_nil ⟨[], rfl⟩
  rw [if_neg hs, if_neg hs]
  cases texts with
  | none => exact follows_cons (fun _ => rfl) fun h => absurd rfl h
  | some texts =>
    dsimp only
    rw [if_neg (Nat.not_lt.2 (hl texts rfl))]
    exact follows_cons (fun h => absurd (Option.some_ne_none texts) h) fun _ => follows_readIdsFrom ..

theorem follows_readType (c : Int32) : Follows
    (Outcome.ofExcept (readCode .elementType ElementType.ofCode? c))
    [.code .elementType ElementType.code c] :=
  follows_readCode ElementType.ofCode?_code ElementType.code_of_ofCode? ..

theorem follows_readFormat (c : Int32) : Follows
    (Outcome.ofExcept (readCode .format Format.ofCode? c)) [.code .format Format.code c] :=
  follows_readCode Format.ofCode?_code Format.code_of_ofCode? ..

theorem LayoutFields.follows_read (f : LayoutFields) : Follows (Outcome.ofExcept f.read)
    [.code .elementType ElementType.code f.type, .code .format Format.code f.format] :=
  (follows_readType _).bindExcept fun _ _ => (follows_readFormat _).bindPure

theorem ActivationFields.follows_read (f : ActivationFields) : Follows (Outcome.ofExcept f.read)
    [.code .activationFunction ActivationFunction.code f.function] :=
  (follows_readCode ActivationFunction.ofCode?_code ActivationFunction.code_of_ofCode? ..).bindPure

theorem EltwiseFields.follows_read (f : EltwiseFields) : Follows (Outcome.ofExcept f.read)
    (.code .eltwiseMode EltwiseMode.code f.mode :: f.input2.checks "input2") :=
  (follows_readCode EltwiseMode.ofCode?_code EltwiseMode.code_of_ofCode? ..).bindExcept
    fun _ _ => (follows_readId _ _).bindPure

theorem DetectionFields.follows_read (f : DetectionFields) : Follows (Outcome.ofExcept f.read)
    [.code .boxCode BoxCode.code f.boxCode] :=
  (follows_readCode BoxCode.ofCode?_code BoxCode.code_of_ofCode? ..).bindPure

theorem ReorderFields.follows_read (f : ReorderFields) : Follows (Outcome.ofExcept f.read)
    [.code .format Format.code f.format, .code .elementType ElementType.code f.type] :=
  (follows_readFormat _).bindExcept fun _ _ => (follows_readType _).bindPure

variable {ε : Type} [Extension ε]

namespace Kind

inductive Fits : Kind ε → Fields ε → Prop
  | inputLayout (f : LayoutFields) : Fits .inputLayout (.inputLayout f)
  | activation (f : ActivationFields) : Fits .activation (.activation f)
  | eltwise (f : EltwiseFields) : Fits .eltwise (.eltwise f)
  | detectionOutput (f : DetectionFields) : Fits .detectionOutput (.detectionOutput f)
  | reorder (f : ReorderFields) : Fits .reorder (.reorder f)
  | custom (e : ε) (f : Extension.Fields ε) : Fits (.custom e) (.custom f)

/-- Every code among the fields stands for something and every text is an id. A custom kind decides
for itself. -/
def Knows : Kind ε → Fields ε → Prop
  | .inputLayout, .inputLayout f =>
    (∃ type : ElementType, type.code = f.type) ∧ ∃ format : Format, format.code = f.format
  | .activation, .activation f => ∃ function : ActivationFunction, function.code = f.function
  | .eltwise, .eltwise f => (∃ mode : EltwiseMode, mode.code = f.mode) ∧ f.input2.IsId
  | .detectionOutput, .detectionOutput f => ∃ boxCode : BoxCode, boxCode.code = f.boxCode
  | .reorder, .reorder f =>
    (∃ format : Format, format.code = f.format) ∧ ∃ type : ElementType, type.code = f.type
  | .custom e, .custom f => ∃ params, Extension.readFields e f = .ok params
  | _, _ => False

def checks : Kind ε → Fields ε → List Check
  | .inputLayout, .inputLayout f =>
    [.code .elementType ElementType.code f.type, .code .format Format.code f.format]
  | .activation, .activation f =>
    [.code .activationFunction ActivationFunction.code f.function]
  | .eltwise, .eltwise f =>
    .code .eltwiseMode EltwiseMode.code f.mode :: f.input2.checks "input2"
  | .detectionOutput, .detectionOutput f => [.code .boxCode BoxCode.code f.boxCode]
  | .reorder, .reorder f =>
    [.code .format Format.code f.format, .code .elementType ElementType.code f.type]
  | .custom e, .custom f =>
    match Extension.readFields e f with
    | .ok _ => []
    | .error error => [⟨False, error⟩]
  | _, _ => []

theorem knows_iff {k : Kind ε} {f : Fields ε} (h : k.Fits f) : k.Knows f ↔ AllHold (k.checks f) := by
  cases h with
  | inputLayout | activation | detectionOutput | reorder => simp [Knows, checks, Check.code]
  | eltwise f => simp [Knows, checks, Check.code, ForeignText.isId_iff "input2"]
  | custom e f =>
    dsimp only [Knows, checks]
    cases Extension.readFields e f <;> simp

theorem follows_readFields {k : Kind ε} {f : Fields ε} (h : k.Fits f) :
    Follows (k.readFields f) (k.checks f) := by
  cases h with
  | inputLayout f =>
    have hread : f.read.map InputLayout.mk = f.read >>= fun layout => pure ⟨layout⟩ := by
      cases f.read <;> rfl
    have h : Follows (Outcome.ofExcept (f.read.map InputLayout.mk)) _ :=
      hread ▸ f.follows_read.bindPure
    exact h
  | activation f => exact f.follows_read
  | eltwise f => exact f.follows_read
  | detectionOutput f => exact f.follows_read
  | reorder f => exact f.follows_read
  | custom e f =>
    dsimp only [readFields, checks]
    cases Extension.readFields e f with
    | ok params => exact follows_nil ⟨params, rfl⟩
    | error e => exact follows_cons (fun _ => rfl) False.elim

end Kind

def Descriptor.checks (d : Descriptor ε) (k : Kind ε) : List Check :=
  d.id.checks "id" ++ (arrayChecks "input" d.inputs d.inputSize ++ k.checks d.fields)

theorem Kind.follows_readPrimitive {k : Kind ε} {d : Descriptor ε} (hf : k.Fits d.fields)
    (hl : ∀ texts, d.inputs = some texts → d.inputSize ≤ texts.length) :
    Follows (k.readPrimitive d) (d.checks k) := by
  rw [Descriptor.checks, ← List.append_nil (k.checks d.fields)]
  exact (follows_readId ..).bind fun id _ => (follows_readIds hl).bind fun inputs _ =>
    (follows_readFields hf).bind fun params _ => follows_nil ⟨_, rfl⟩

end InferenceGraph
