/-
What settings come to.

A call changes one part of one operation, or is refused.  Whether it is refused goes by the
kind of the operation, which no call changes, and by nothing that an earlier call has left.
A call that is not refused writes its part without having read it.  So a part holds in the
end what the last call wrote that was made to it and was not refused, and all the others
might as well not have been made (`content_after`).

Parts are shared: a condition is a payload, and a branch keeps its bodies where a loop does.
This is no mixing, since an operation is not both.  What counts in a sequence of calls is
thus, for each part of each operation, the calls that are made to it, in their order; calls
to different parts can change places (`after_eq_of_sameOrder`).
-/
import Testbed.Proofs.Scenario.Buildable

namespace Testbed

open Outcome

/-! ### Parts of operations -/

/-- What can be set of an operation. -/
inductive Operation.Part where
  | payload
  | firstBody
  | secondBody
  | label
  | wait
deriving DecidableEq

/-- What a part holds. -/
def Operation.Part.Content : Operation.Part → Type
  | payload => Option (Payload Scenario)
  | firstBody => List Handle
  | secondBody => List Handle
  | label => Option String
  | wait => Wait

/-- What a part of an operation holds. -/
def Operation.content (op : Operation Scenario) : (part : Operation.Part) → part.Content
  | .payload => op.payload
  | .firstBody => op.firstBody
  | .secondBody => op.secondBody
  | .label => op.label
  | .wait => op.wait

/-- An operation is its kind and its parts. -/
theorem Operation.ext_content {op op' : Operation Scenario} (hkind : op.kind = op'.kind)
    (h : ∀ part, op.content part = op'.content part) : op = op' := by
  have hpayload : op.payload = op'.payload := h .payload
  have hfirst : op.firstBody = op'.firstBody := h .firstBody
  have hsecond : op.secondBody = op'.secondBody := h .secondBody
  have hlabel : op.label = op'.label := h .label
  have hwait : op.wait = op'.wait := h .wait
  cases op
  cases op'
  cases hkind
  cases hpayload
  cases hfirst
  cases hsecond
  cases hlabel
  cases hwait
  rfl

/-- The kinds of operations that run others. -/
def Kind.HasBodies (kind : Kind) : Prop := kind = .branch ∨ kind = .loop

/-- Only operations that run others have any in their bodies. -/
def Operation.Fitting {σ : Type} (op : Operation σ) : Prop :=
  op.firstBody ≠ [] ∨ op.secondBody ≠ [] → op.kind.HasBodies

/-! ### Changes -/

namespace Change

/-- The part that a change is made to. -/
def part : Change → Operation.Part
  | payload _ => .payload
  | condition _ => .payload
  | body .ifTrue _ => .firstBody
  | body .ifFalse _ => .secondBody
  | body .eachRound _ => .firstBody
  | body .atEnd _ => .secondBody
  | label _ => .label
  | wait _ => .wait

/-- The payload that a condition is, when it is given to an operation of some kind: that of a
loop for a loop, and that of a branch for all others. -/
def conditional (kind : Kind) (c : Condition) : Payload Scenario :=
  if kind = .loop then .loop c else .branch c

/-- The kind of operation that a change is for, when it is made to one of some kind; labels and
waits are for all kinds. -/
def meantFor (kind : Kind) : Change → Option Kind
  | payload p => some p.kind
  | condition c => some (conditional kind c).kind
  | body b _ => some b.kind
  | label _ => none
  | wait _ => none

/-- A change is for no other kind of operation. -/
def suits (kind : Kind) (c : Change) : Bool := (c.meantFor kind).all (· == kind)

/-- What a change writes into a part, when it is made to an operation of some kind. -/
def writes? (kind : Kind) : (part : Operation.Part) → Change → Option part.Content
  | .payload, payload p => some (some p)
  | .payload, condition c => some (some (conditional kind c))
  | .firstBody, body .ifTrue handles => some handles
  | .firstBody, body .eachRound handles => some handles
  | .secondBody, body .ifFalse handles => some handles
  | .secondBody, body .atEnd handles => some handles
  | .label, label text => some (some text)
  | .wait, wait w => some w
  | _, _ => none

/-- What the last of the changes writes into a part that are not refused. -/
def lastWritten? (kind : Kind) (part : Operation.Part) (changes : List Change) :
    Option part.Content :=
  ((changes.filter (·.suits kind)).filterMap (writes? kind part)).getLast?

variable {c : Change} {op op' : Operation Scenario} {kind : Kind} {part : Operation.Part}

theorem suits_iff : c.suits kind = true ↔ ∀ found, c.meantFor kind = some found → found = kind := by
  simp [suits, Option.all_eq_true]

theorem not_suits_iff : ¬ c.suits kind = true
    ↔ ∃ found, c.meantFor kind = some found ∧ found ≠ kind := by
  simp only [suits_iff, not_forall, exists_prop]

/-- A change writes into its own part only. -/
theorem writes?_of_part_ne (h : c.part ≠ part) : c.writes? kind part = none := by
  cases c with
  | body b handles => cases b <;> cases part <;> first | rfl | exact absurd rfl h
  | _ => cases part <;> first | rfl | exact absurd rfl h

/-- To give a condition is to configure with the payload that it is. -/
theorem apply_condition (condition : Condition) (op : Operation Scenario) :
    apply (.condition condition) op = op.configure (conditional op.kind condition) := by
  simp only [apply, Operation.configureCondition, conditional]
  split
  · rename_i hloop
    rw [if_pos hloop]
  · rename_i hother
    rw [if_neg hother]

/-- A change that is not refused writes its part, and leaves the kind and the other parts. -/
theorem apply_of_suits (h : c.suits op.kind = true) : ∃ op', c.apply op = .ok op' ∧
    op'.kind = op.kind ∧
      ∀ part, op'.content part = (c.writes? op.kind part).getD (op.content part) := by
  have hkind := suits_iff.mp h
  cases c with
  | payload p =>
      refine ⟨_, Operation.configure_eq_ok.mpr ⟨hkind _ rfl, rfl⟩, rfl, fun part => ?_⟩
      cases part <;> rfl
  | condition condition =>
      rw [apply_condition]
      refine ⟨_, Operation.configure_eq_ok.mpr ⟨hkind _ rfl, rfl⟩, rfl, fun part => ?_⟩
      cases part <;> rfl
  | body b handles =>
      have hexpect : op.expectKind b.kind = .ok () := Operation.expectKind_eq_ok.mpr (hkind _ rfl)
      simp only [apply, Operation.configureBody, hexpect]
      cases b <;> refine ⟨_, rfl, rfl, fun part => ?_⟩ <;> cases part <;> rfl
  | label text =>
      refine ⟨_, rfl, rfl, fun part => ?_⟩
      cases part <;> rfl
  | wait w =>
      refine ⟨_, rfl, rfl, fun part => ?_⟩
      cases part <;> rfl

/-- A change is refused that is for another kind of operation, and with both kinds. -/
theorem apply_of_meantFor {found : Kind} (h : c.meantFor op.kind = some found)
    (hne : found ≠ op.kind) : c.apply op = .error (.payloadMismatch op.kind found) := by
  have hexpect : op.expectKind found = .error (.payloadMismatch op.kind found) := if_neg hne
  have hconfigure : ∀ p : Payload Scenario, p.kind = found →
      op.configure p = .error (.payloadMismatch op.kind found) := by
    rintro p rfl
    simp only [Operation.configure, hexpect]
    rfl
  cases c with
  | payload p => exact hconfigure p (Option.some.inj h)
  | condition condition =>
      rw [apply_condition]
      exact hconfigure _ (Option.some.inj h)
  | body b handles =>
      cases h
      simp only [apply, Operation.configureBody, hexpect]
      rfl
  | label text => cases h
  | wait w => cases h

/-- **A change is carried out exactly if it suits the operation, and then it writes its part.** -/
theorem apply_eq_ok : c.apply op = .ok op' ↔ c.suits op.kind = true ∧ op'.kind = op.kind ∧
    ∀ part, op'.content part = (c.writes? op.kind part).getD (op.content part) := by
  refine ⟨?_, ?_⟩
  · intro h
    by_cases hsuits : c.suits op.kind = true
    · obtain ⟨written, hok, hwritten⟩ := apply_of_suits hsuits
      cases hok.symm.trans h
      exact ⟨hsuits, hwritten⟩
    · obtain ⟨found, hfound, hne⟩ := not_suits_iff.mp hsuits
      cases h.symm.trans (apply_of_meantFor hfound hne)
  · intro h
    obtain ⟨hsuits, hkind, hcontent⟩ := h
    obtain ⟨written, hok, hkind', hcontent'⟩ := apply_of_suits hsuits
    have heq : op' = written := Operation.ext_content (hkind.trans hkind'.symm) fun part =>
      (hcontent part).trans (hcontent' part).symm
    rw [heq, hok]

theorem apply_eq_error {e : ScenarioError} : c.apply op = .error e
    ↔ ∃ found, c.meantFor op.kind = some found ∧ found ≠ op.kind
      ∧ e = .payloadMismatch op.kind found := by
  refine ⟨?_, ?_⟩
  · intro h
    by_cases hsuits : c.suits op.kind = true
    · obtain ⟨op', hok, -⟩ := apply_of_suits hsuits
      rw [hok] at h
      cases h
    · obtain ⟨found, hfound, hne⟩ := not_suits_iff.mp hsuits
      rw [apply_of_meantFor hfound hne] at h
      exact ⟨found, hfound, hne, (Except.error.inj h).symm⟩
  · intro h
    obtain ⟨found, hfound, hne, rfl⟩ := h
    exact apply_of_meantFor hfound hne

/-- Only what is for a branch or a loop writes a body. -/
theorem hasBodies_of_part (hsuits : c.suits kind = true)
    (h : c.part = .firstBody ∨ c.part = .secondBody) : kind.HasBodies := by
  have hkind := suits_iff.mp hsuits
  cases c with
  | body b handles =>
      rw [← hkind _ rfl]
      cases b with
      | ifTrue | ifFalse => exact .inl rfl
      | eachRound | atEnd => exact .inr rfl
  | _ => rcases h with h | h <;> cases h

theorem apply_fitting (h : c.apply op = .ok op') (hop : op.Fitting) : op'.Fitting := by
  obtain ⟨hsuits, hkind, hcontent⟩ := apply_eq_ok.mp h
  unfold Operation.Fitting
  rw [hkind]
  by_cases hbody : c.part = .firstBody ∨ c.part = .secondBody
  · exact fun _ => hasBodies_of_part hsuits hbody
  · have hkept : ∀ part, part = .firstBody ∨ part = .secondBody →
        op'.content part = op.content part := by
      intro part hpart
      rw [hcontent, writes?_of_part_ne fun heq => hbody (heq ▸ hpart)]
      rfl
    have hfirst : op'.firstBody = op.firstBody := hkept .firstBody (.inl rfl)
    have hsecond : op'.secondBody = op.secondBody := hkept .secondBody (.inr rfl)
    rw [hfirst, hsecond]
    exact hop

end Change

namespace Operation

theorem fitting_new {σ : Type} (kind : Kind) (wait : Wait) :
    (new kind wait : Operation σ).Fitting := by
  rintro (h | h) <;> exact absurd rfl h

theorem fitting_withEmbedded {σ : Type} {op : Operation σ} (h : op.Fitting) (s : σ) :
    (op.withEmbedded s).Fitting := by
  unfold withEmbedded
  split
  · exact h
  · exact h

end Operation

/-- No call puts anything into a body of an operation that has none. -/
theorem World.Reachable.fitting {w : World} (hw : w.Reachable) {s : Scenario} (hs : s ∈ w.live) :
    ∀ op ∈ s.operations, op.Fitting :=
  hw.each_operation Operation.fitting_new Change.apply_fitting
    (fun s h => Operation.fitting_withEmbedded h s) hs

/-! ### Changes one after the other -/

namespace Operation

variable {op op' : Operation Scenario} {part : Part}

/-- What a change makes of an operation: nothing, if it is refused. -/
def changed (op : Operation Scenario) (c : Change) : Operation Scenario :=
  match c.apply op with
  | .ok op' => op'
  | .error _ => op

/-- What changes make of an operation, one after the other. -/
def after (op : Operation Scenario) (changes : List Change) : Operation Scenario :=
  changes.foldl changed op

theorem changed_of_ok {c : Change} (h : c.apply op = .ok op') : op.changed c = op' := by
  rw [changed, h]

theorem changed_of_error {c : Change} {e : ScenarioError} (h : c.apply op = .error e) :
    op.changed c = op := by
  rw [changed, h]

theorem after_concat (op : Operation Scenario) (changes : List Change) (c : Change) :
    op.after (changes ++ [c]) = (op.after changes).changed c :=
  List.foldl_concat _ _ _ _

/-- What every change leaves true, changes leave true that are made one after the other. -/
theorem forall_after {P : Operation Scenario → Prop}
    (hchange : ∀ {c : Change} {op op' : Operation Scenario}, c.apply op = .ok op' → P op → P op')
    (h : P op) (changes : List Change) : P (op.after changes) := by
  induction changes using List.reverseRecOn with
  | nil => exact h
  | append_singleton changes c ih =>
      rw [after_concat]
      cases happly : c.apply (op.after changes) with
      | ok op' =>
          rw [changed_of_ok happly]
          exact hchange happly ih
      | error e =>
          rw [changed_of_error happly]
          exact ih

theorem kind_after (op : Operation Scenario) (changes : List Change) :
    (op.after changes).kind = op.kind :=
  forall_after (P := fun op' => op'.kind = op.kind)
    (fun happly heq => (Change.apply_kind happly).trans heq) rfl changes

/-- A change writes its part, unless it is for another kind of operation. -/
theorem content_changed (op : Operation Scenario) (c : Change) (part : Part) :
    (op.changed c).content part
      = if c.suits op.kind then (c.writes? op.kind part).getD (op.content part)
        else op.content part := by
  by_cases hsuits : c.suits op.kind = true
  · obtain ⟨op', hok, -, hcontent⟩ := Change.apply_of_suits hsuits
    rw [changed_of_ok hok, hcontent, if_pos hsuits]
  · obtain ⟨found, hfound, hne⟩ := Change.not_suits_iff.mp hsuits
    rw [changed_of_error (Change.apply_of_meantFor hfound hne), if_neg hsuits]

/-- **A part holds what the last change wrote that was made to it and not refused.** -/
theorem content_after (op : Operation Scenario) (changes : List Change) (part : Part) :
    (op.after changes).content part
      = (Change.lastWritten? op.kind part changes).getD (op.content part) := by
  induction changes using List.reverseRecOn with
  | nil => rfl
  | append_singleton changes c ih =>
      rw [after_concat, content_changed, kind_after, ih]
      unfold Change.lastWritten?
      rw [List.filter_append]
      by_cases hsuits : c.suits op.kind = true
      · cases hwrites : c.writes? op.kind part with
        | none => simp [hsuits, hwrites]
        | some value => simp [hsuits, hwrites]
      · simp [hsuits]

/-- What is left in a part goes by the changes to this part alone. -/
theorem lastWritten?_filter (kind : Kind) (part : Part) (changes : List Change) :
    Change.lastWritten? kind part (changes.filter (·.part = part))
      = Change.lastWritten? kind part changes := by
  unfold Change.lastWritten?
  rw [List.filter_filter, List.filterMap_filter, List.filterMap_filter]
  refine congrArg List.getLast? (List.filterMap_congr fun c _ => ?_)
  by_cases hpart : c.part = part
  · simp [hpart]
  · simp [hpart, Change.writes?_of_part_ne hpart]

theorem after_congr {changes others : List Change}
    (h : ∀ part, changes.filter (·.part = part) = others.filter (·.part = part))
    (op : Operation Scenario) : op.after changes = op.after others := by
  refine ext_content ?_ fun part => ?_
  · rw [kind_after, kind_after]
  · rw [content_after, content_after, ← lastWritten?_filter, h part, lastWritten?_filter]

end Operation

/-! ### Calls -/

namespace Scenario

/-- A change to the operation that a handle points at. -/
structure Call where
  handle : Handle
  change : Change

/-- What a scenario answers to a call. -/
def call (s : Scenario) (c : Call) : Except ScenarioError Scenario :=
  s.modifyOperation c.handle c.change.apply

/-- What a call makes of a scenario: nothing, if it is refused. -/
def called (s : Scenario) (c : Call) : Scenario :=
  match s.call c with
  | .ok s' => s'
  | .error _ => s

/-- What calls make of a scenario, one after the other. -/
def after (s : Scenario) (calls : List Call) : Scenario := calls.foldl called s

/-- The call is made to the operation at a position. -/
def Reaches (s : Scenario) (position : Nat) (c : Call) : Prop :=
  s.owns c.handle = true ∧ c.handle.index = position

/-- It can be decided which calls reach a position. -/
instance (s : Scenario) (position : Nat) : DecidablePred (s.Reaches position) :=
  fun _ => inferInstanceAs (Decidable (_ ∧ _))

/-- The changes that calls make to the operation at a position, in order. -/
def changesAt (s : Scenario) (position : Nat) (calls : List Call) : List Change :=
  (calls.filter (s.Reaches position ·)).map Call.change

/-- Calls to the same part of the same operation are made in the same order. -/
def SameOrder (s : Scenario) (calls others : List Call) : Prop :=
  ∀ position part, (s.changesAt position calls).filter (·.part = part)
    = (s.changesAt position others).filter (·.part = part)

variable {s : Scenario}

theorem after_concat (s : Scenario) (calls : List Call) (c : Call) :
    s.after (calls ++ [c]) = (s.after calls).called c :=
  List.foldl_concat _ _ _ _

/-- A call changes the operation that it is made to, and nothing else. -/
theorem called_cases (s : Scenario) (c : Call) :
    s.called c = { s with operations := (s.called c).operations } ∧
      ∀ i, (s.called c).operations[i]?
        = if s.Reaches i c then s.operations[i]?.map (·.changed c.change)
          else s.operations[i]? := by
  unfold called
  cases hcall : s.call c with
  | ok s' =>
      obtain ⟨op, op', howns, hfound, hdone, rfl⟩ := modifyOperation_eq_ok.mp hcall
      refine ⟨rfl, fun i => ?_⟩
      rw [List.getElem?_set]
      by_cases hi : c.handle.index = i
      · subst hi
        have hlt := (List.getElem?_eq_some_iff.mp hfound).1
        rw [if_pos rfl, if_pos hlt, if_pos ⟨howns, rfl⟩, hfound, Option.map_some,
          Operation.changed_of_ok hdone]
      · rw [if_neg hi, if_neg fun h => hi h.2]
  | error e =>
      refine ⟨by cases s; rfl, fun i => ?_⟩
      by_cases hreaches : s.Reaches i c
      · rw [if_pos hreaches]
        obtain ⟨howns, rfl⟩ := hreaches
        cases hfound : s.operations[c.handle.index]? with
        | none => rfl
        | some op =>
            -- the change was refused, or else the call would not have been
            cases happly : c.change.apply op with
            | ok op' =>
                have hcarried := modifyOperation_eq_ok.mpr ⟨op, op', howns, hfound, happly, rfl⟩
                cases hcall.symm.trans hcarried
            | error e => rw [Option.map_some, Operation.changed_of_error happly]
      · rw [if_neg hreaches]

theorem size_called (s : Scenario) (c : Call) : (s.called c).size = s.size := by
  unfold called
  cases hcall : s.call c with
  | ok s' =>
      obtain ⟨op, op', -, -, -, rfl⟩ := modifyOperation_eq_ok.mp hcall
      exact List.length_set
  | error e => rfl

/-- Calls change operations, and nothing else of a scenario. -/
theorem after_eq (s : Scenario) (calls : List Call) :
    s.after calls = { s with operations := (s.after calls).operations } := by
  induction calls using List.reverseRecOn with
  | nil => cases s; rfl
  | append_singleton calls c ih =>
      rw [after_concat, (called_cases _ c).1]
      generalize ((s.after calls).called c).operations = operations
      rw [ih]

theorem size_after (s : Scenario) (calls : List Call) : (s.after calls).size = s.size := by
  induction calls using List.reverseRecOn with
  | nil => rfl
  | append_singleton calls c ih => rw [after_concat, size_called, ih]

/-- A handle is good after calls if it was before. -/
theorem owns_after (s : Scenario) (calls : List Call) (h : Handle) :
    (s.after calls).owns h = s.owns h := by
  unfold owns
  rw [size_after, after_eq]

/-- Every operation goes its own way: it becomes what the calls that are made to it make of it. -/
theorem operations_after (s : Scenario) (calls : List Call) (i : Nat) :
    (s.after calls).operations[i]? = s.operations[i]?.map (·.after (s.changesAt i calls)) := by
  induction calls using List.reverseRecOn with
  | nil =>
      change s.operations[i]? = s.operations[i]?.map id
      rw [Option.map_id]
      rfl
  | append_singleton calls c ih =>
      have hreaches : (s.after calls).Reaches i c ↔ s.Reaches i c := by
        unfold Reaches
        rw [owns_after]
      rw [after_concat, (called_cases _ c).2, ih]
      unfold changesAt
      rw [List.filter_append, List.map_append]
      by_cases hc : s.Reaches i c
      · rw [if_pos (hreaches.mpr hc), Option.map_map]
        simp only [List.filter_cons, hc, List.filter_nil, decide_true, if_true, List.map_cons,
          List.map_nil, Operation.after_concat]
        rfl
      · rw [if_neg (mt hreaches.mp hc)]
        simp [hc]

/-- Calls can be made in any order in which those to the same part keep theirs. -/
theorem after_eq_of_sameOrder {calls others : List Call} (h : s.SameOrder calls others) :
    s.after calls = s.after others := by
  have hoperations : (s.after calls).operations = (s.after others).operations := by
    refine List.ext_getElem? fun i => ?_
    rw [operations_after, operations_after]
    exact congrArg (Option.map · _) (funext fun op => Operation.after_congr (h i) op)
  rw [after_eq s calls, after_eq s others, hoperations]

/-- What calls have come to for the operation at a position. -/
structure SettledBy (s : Scenario) (calls : List Call) (position : Nat)
    (op op' : Operation Scenario) : Prop where
  kind : op'.kind = op.kind
  /-- Each part holds what the last call wrote that was made to it and not refused. -/
  content : ∀ part, op'.content part
    = (Change.lastWritten? op.kind part (s.changesAt position calls)).getD (op.content part)
  /-- The next call to the operation is refused if it is for another kind, and only then. -/
  refused : ∀ c : Call, s.Reaches position c → ∀ e, (s.after calls).call c = .error e
    ↔ ∃ found, c.change.meantFor op.kind = some found ∧ found ≠ op.kind
      ∧ e = .payloadMismatch op.kind found
  /-- A call that is refused leaves everything as it is. -/
  unchanged : ∀ c e, (s.after calls).call c = .error e → s.after (calls ++ [c]) = s.after calls
  coherent : op'.Coherent
  fitting : op'.Fitting

/-- A call to an operation is refused if the change is. -/
theorem call_eq_error {position : Nat} {op : Operation Scenario} {c : Call} {e : ScenarioError}
    (hc : s.Reaches position c) (hop : s.operations[position]? = some op) :
    s.call c = .error e ↔ c.change.apply op = .error e := by
  obtain ⟨howns, rfl⟩ := hc
  unfold call modifyOperation
  rw [operation_eq_ok.mpr ⟨howns, hop⟩]
  change (c.change.apply op >>= fun changed => pure _) = .error e ↔ _
  rw [bind_eq_error]
  exact or_iff_left fun ⟨_, _, h⟩ => by cases h

/--
**The last write counts, part by part, in whatever order the parts are written.**

A call to an operation is refused exactly if it is for another kind of operation, and then it
leaves nothing behind.  Of the calls that are not refused, each part keeps what the last one
wrote; no call changes a kind, so payloads stay of the kind of their operation and bodies stay
with branches and loops.  Calls that keep the order for each part of each operation lead to the
same build.
-/
theorem build_after {s : Scenario} (h : s.Reachable) (calls : List Call) :
    ((s.after calls).size = s.size ∧ ∀ i op, s.operations[i]? = some op →
        ∃ op', (s.after calls).operations[i]? = some op' ∧ s.SettledBy calls i op op')
      ∧ ∀ others, s.SameOrder calls others → (s.after others).build = (s.after calls).build := by
  obtain ⟨w, hw, hs⟩ := h
  refine ⟨⟨size_after s calls, fun i op hop => ?_⟩, fun others hothers => ?_⟩
  · have hmem := List.mem_of_getElem? hop
    have hop' : (s.after calls).operations[i]? = some (op.after (s.changesAt i calls)) := by
      rw [operations_after, hop]
      rfl
    refine ⟨_, hop', ?_⟩
    refine ⟨op.kind_after _, op.content_after _, fun c hc e => ?_, fun c e he => ?_, ?_, ?_⟩
    · have hreaches : (s.after calls).Reaches i c := by
        unfold Reaches
        rwa [owns_after]
      rw [call_eq_error hreaches hop', Change.apply_eq_error, op.kind_after]
    · rw [after_concat, called, he]
    · exact Operation.forall_after Change.apply_coherent (hw.coherent hs op hmem) _
    · exact Operation.forall_after Change.apply_fitting (hw.fitting hs op hmem) _
  · rw [after_eq_of_sameOrder hothers]

/-- A branch, and a reboot. -/
def branching : Scenario :=
  ⟨1, [], "Branching", "", [], [], [.new .branch .immediate, .new .reboot .immediate]⟩

theorem branching_reachable : branching.Reachable := by
  have hcreate : World.initial.Leads ⟨2, [⟨1, [], "Branching", "", [], [], []⟩], [.created 1]⟩ :=
    .single (.create "Branching" "" rfl)
  have hbranch := hcreate.tail (.add .branch .immediate (Log.issued_immediate _) rfl)
  have hreboot := hbranch.tail (.add .reboot .immediate (Log.issued_immediate _) rfl)
  exact World.Reachable.scenario hreboot

/-- Calls to both operations, with a body that is set twice and one that no branch has. -/
def branchingCalls : List Call :=
  [⟨⟨1, 0⟩, .body .ifTrue []⟩, ⟨⟨1, 1⟩, .label "Restart"⟩, ⟨⟨1, 0⟩, .body .eachRound [⟨1, 0⟩]⟩,
    ⟨⟨1, 0⟩, .body .ifTrue [⟨1, 1⟩]⟩, ⟨⟨1, 1⟩, .payload (.reboot (.placeholder "agent"))⟩]

/-- The same calls, but the reboot comes first. -/
def branchingCallsReordered : List Call :=
  [⟨⟨1, 1⟩, .payload (.reboot (.placeholder "agent"))⟩, ⟨⟨1, 1⟩, .label "Restart"⟩,
    ⟨⟨1, 0⟩, .body .ifTrue []⟩, ⟨⟨1, 0⟩, .body .eachRound [⟨1, 0⟩]⟩,
    ⟨⟨1, 0⟩, .body .ifTrue [⟨1, 1⟩]⟩]

theorem branchingCalls_sameOrder :
    branching.SameOrder branchingCalls branchingCallsReordered := by
  intro position part
  match position with
  | 0 => rfl
  | 1 => cases part <;> rfl
  | n + 2 => simp [changesAt, branchingCalls, branchingCallsReordered, Reaches]

/-- The second body that was set for the true branch is there, the one for rounds is not. -/
theorem branching_settled :
    branching.Reachable ∧ branching.SameOrder branchingCalls branchingCallsReordered
      ∧ (branching.after branchingCallsReordered).build = (branching.after branchingCalls).build
      ∧ ∃ op, (branching.after branchingCalls).operations[0]? = some op
        ∧ op.firstBody = [⟨1, 1⟩] ∧ op.secondBody = [] := by
  obtain ⟨⟨-, hall⟩, hbuild⟩ := build_after branching_reachable branchingCalls
  obtain ⟨op, hop, hsettled⟩ := hall 0 _ rfl
  exact ⟨branching_reachable, branchingCalls_sameOrder, hbuild _ branchingCalls_sameOrder, op, hop,
    hsettled.content .firstBody, hsettled.content .secondBody⟩

end Scenario

end Testbed
