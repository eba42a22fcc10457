/-
What is done to one operation of one scenario.

A handle is good for a scenario if the scenario owns it; everything that takes a handle
asks for that first.  An operation is changed by a setting, which is carried out or
refused as a whole: a payload is put in, or the payload stays what it was.  No setting
changes the kind of an operation, and none puts in a payload of another kind.
-/
import Testbed.Proofs.Outcome
import Testbed.Proofs.Scenario.Family

namespace Testbed

namespace Scenario

/-! ### Handles -/

theorem owns_iff (s : Scenario) (h : Handle) :
    s.owns h = true ↔ h.index < s.size ∧ (h.scenario = s.identity
      ∨ ∃ a ∈ s.ancestry, a.identity = h.scenario ∧ h.index < a.boundary) := by
  simp only [owns, Bool.and_eq_true, Bool.or_eq_true, decide_eq_true_eq, beq_iff_eq,
    List.any_eq_true]

theorem lt_size_of_owns {s : Scenario} {h : Handle} (howns : s.owns h = true) :
    h.index < s.size :=
  ((owns_iff s h).mp howns).1

theorem resolve_eq_ok {s : Scenario} {h : Handle} {position : Nat} :
    s.resolve h = .ok position ↔ s.owns h = true ∧ h.index = position := by
  unfold resolve
  by_cases howns : s.owns h = true
  · rw [if_pos howns]
    exact ⟨fun heq => ⟨howns, Except.ok.inj heq⟩, fun heq => by rw [heq.2]⟩
  · rw [if_neg howns]
    exact ⟨fun heq => (by cases heq), fun heq => absurd heq.1 howns⟩

theorem operation_eq_ok {s : Scenario} {h : Handle} {op : Operation Scenario} :
    s.operation h = .ok op ↔ s.owns h = true ∧ s.operations[h.index]? = some op := by
  unfold operation
  rw [Outcome.bind_eq_ok]
  refine ⟨?_, ?_⟩
  · intro h
    obtain ⟨position, hposition, hop⟩ := h
    obtain ⟨howns, rfl⟩ := resolve_eq_ok.mp hposition
    refine ⟨howns, ?_⟩
    split at hop
    · rename_i op' hfound
      rw [hfound, Outcome.pure_eq_ok.mp hop]
    · cases hop
  · intro h
    obtain ⟨howns, hfound⟩ := h
    refine ⟨h.index, resolve_eq_ok.mpr ⟨howns, rfl⟩, ?_⟩
    rw [hfound]
    rfl

/-- An operation is changed where its handle points, and nothing else is. -/
theorem modifyOperation_eq_ok {s s' : Scenario} {h : Handle}
    {change : Operation Scenario → Except ScenarioError (Operation Scenario)} :
    s.modifyOperation h change = .ok s' ↔ ∃ op op', s.owns h = true
      ∧ s.operations[h.index]? = some op ∧ change op = .ok op'
      ∧ s' = { s with operations := s.operations.set h.index op' } := by
  unfold modifyOperation
  simp only [Outcome.bind_eq_ok, Outcome.pure_eq_ok, operation_eq_ok]
  refine ⟨?_, ?_⟩
  · intro h
    obtain ⟨op, ⟨howns, hfound⟩, op', hchange, heq⟩ := h
    exact ⟨op, op', howns, hfound, hchange, heq.symm⟩
  · intro h
    obtain ⟨op, op', howns, hfound, hchange, heq⟩ := h
    exact ⟨op, ⟨howns, hfound⟩, op', hchange, heq.symm⟩

end Scenario

/-! ### Settings -/

/-- What can be done to an operation. -/
inductive Change where
  | payload (payload : Payload Scenario)
  | condition (condition : Condition)
  | body (body : Operation.Body) (handles : List Handle)
  | label (text : String)
  | wait (wait : Wait)

namespace Change

/-- Carries out a change. -/
def apply : Change → Operation Scenario → Except ScenarioError (Operation Scenario)
  | payload p, op => op.configure p
  | condition c, op => op.configureCondition c
  | body b handles, op => op.configureBody b handles
  | label text, op => .ok (op.setLabel text)
  | wait w, op => .ok { op with wait := w }

/-- The handles that a change puts into an operation. -/
def handles : Change → List Handle
  | payload p => p.targets
  | condition _ => []
  | body _ handles => handles
  | label _ => []
  | wait w => w.references

/-- The scenario that a change puts into an operation. -/
def embedded? : Change → Option Scenario
  | payload p => p.embedded?
  | _ => none

end Change

namespace Operation

variable {σ : Type}

/-- The payload of an operation is for operations of its kind. -/
def Coherent (op : Operation σ) : Prop := ∀ p, op.payload = some p → p.kind = op.kind

theorem coherent_new (kind : Kind) (wait : Wait) :
    (new kind wait : Operation σ).Coherent := by
  intro p hp
  cases hp

theorem coherent_withEmbedded {op : Operation σ} (h : op.Coherent) (s : σ) :
    (op.withEmbedded s).Coherent := by
  unfold withEmbedded
  split
  · rename_i hp
    intro p hp'
    cases hp'
    show Kind.startScenario = op.kind
    exact h _ hp
  · exact h

@[simp] theorem kind_withEmbedded (op : Operation σ) (s : σ) :
    (op.withEmbedded s).kind = op.kind := by
  unfold withEmbedded
  split <;> rfl

theorem expectKind_eq_ok {op : Operation σ} {kind : Kind} {u : Unit} :
    op.expectKind kind = .ok u ↔ kind = op.kind := by
  unfold expectKind
  by_cases hkind : kind = op.kind
  · simp [hkind]
  · simp [hkind]

theorem configure_eq_ok {op op' : Operation σ} {p : Payload σ} :
    op.configure p = .ok op' ↔ p.kind = op.kind ∧ op' = { op with payload := some p } := by
  unfold configure
  simp only [Outcome.bind_eq_ok, Outcome.pure_eq_ok, expectKind_eq_ok]
  exact ⟨fun ⟨_, hkind, heq⟩ => ⟨hkind, heq.symm⟩, fun ⟨hkind, heq⟩ => ⟨(), hkind, heq.symm⟩⟩

end Operation

namespace Change

variable {c : Change} {op op' : Operation Scenario}

/-- A change puts in a payload of the right kind, or leaves the payload alone. -/
theorem apply_cases (h : c.apply op = .ok op') :
    (∃ p, p.kind = op.kind ∧ p.embedded? = c.embedded? ∧ op' = { op with payload := some p })
      ∨ (op'.kind = op.kind ∧ op'.payload = op.payload ∧ c.embedded? = none) := by
  cases c with
  | payload p =>
      obtain ⟨hkind, heq⟩ := Operation.configure_eq_ok.mp h
      exact Or.inl ⟨p, hkind, rfl, heq⟩
  | condition condition =>
      simp only [apply, Operation.configureCondition] at h
      split at h
      · obtain ⟨hkind, heq⟩ := Operation.configure_eq_ok.mp h
        exact Or.inl ⟨.loop condition, hkind, rfl, heq⟩
      · obtain ⟨hkind, heq⟩ := Operation.configure_eq_ok.mp h
        exact Or.inl ⟨.branch condition, hkind, rfl, heq⟩
  | body body handles =>
      right
      obtain ⟨_, -, heq⟩ := Outcome.bind_eq_ok.mp h
      cases body <;> cases heq <;> exact ⟨rfl, rfl, rfl⟩
  | label text =>
      cases h
      exact Or.inr ⟨rfl, rfl, rfl⟩
  | wait wait =>
      cases h
      exact Or.inr ⟨rfl, rfl, rfl⟩

theorem apply_kind (h : c.apply op = .ok op') : op'.kind = op.kind := by
  rcases apply_cases h with ⟨p, -, -, rfl⟩ | ⟨hkind, -, -⟩
  · rfl
  · exact hkind

theorem apply_coherent (h : c.apply op = .ok op') (hop : op.Coherent) : op'.Coherent := by
  rcases apply_cases h with ⟨p, hkind, -, rfl⟩ | ⟨hkind, hpayload, -⟩
  · intro p' hp'
    cases hp'
    exact hkind
  · intro p hp
    rw [hkind]
    exact hop p (hpayload ▸ hp)

/-- The scenarios in a changed operation were in it before, or came with the change. -/
theorem family_apply (h : c.apply op = .ok op') :
    op'.family.Sublist (op.family ++ c.embedded?.toList.flatMap Scenario.family) := by
  rcases apply_cases h with ⟨p, -, hembedded, rfl⟩ | ⟨-, hpayload, -⟩
  · have hfamily : ({ op with payload := some p } : Operation Scenario).family
        = c.embedded?.toList.flatMap Scenario.family := by
      rw [← hembedded]
      unfold Operation.family Operation.embedded?
      cases hp : p.embedded? with
      | none => simp [hp]
      | some s => simp [hp]
    rw [hfamily]
    exact List.sublist_append_right _ _
  · have hfamily : op'.family = op.family := by
      rw [Operation.family, Operation.family, Operation.embedded?, Operation.embedded?, hpayload]
    rw [hfamily]
    exact List.sublist_append_left _ _

end Change

end Testbed
