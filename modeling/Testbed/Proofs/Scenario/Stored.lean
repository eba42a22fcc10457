/-
What operations are put together from.

Whoever adds or changes an operation has to have what is put in: waits that were put
together by adding handles, and handles that were given out.  The log tells of every such
call, so this holds of everything it tells of, and from there of every operation of every
live scenario, however often it was copied.

A handle that was given out carries an identity that was taken before.  So the handles that
are stored anywhere never carry an identity that is yet to be given out.
-/
import Testbed.Proofs.Scenario.Likeness
import Testbed.Proofs.Scenario.Provenance

namespace Testbed

/-! ### What calls bring -/

namespace Log

/-- What an event puts into an operation could be had. -/
def Brought (log : Log) : Event → Prop
  | .added _ op => ∃ kind wait, op = .new kind wait ∧ wait.Made
      ∧ ∀ h ∈ wait.references, log.Issued h
  | .changed _ c => log.Offers c
  | _ => True

variable {log : Log}

theorem Brought.append {e : Event} (he : log.Brought e) (more : Log) : Brought (log ++ more) e := by
  cases e with
  | added slot op =>
      obtain ⟨kind, wait, hop, hmade, hknown⟩ := he
      exact ⟨kind, wait, hop, hmade, fun h hh => (hknown h hh).append more⟩
  | changed slot c => exact Offers.append he more
  | created _ | copied _ _ _ | issued _ _ => trivial

/-- What is brought to a log stays brought when more is logged that could be had. -/
theorem forall_brought_append {more : Log} (hlog : ∀ e ∈ log, log.Brought e)
    (hmore : ∀ e ∈ more, log.Brought e) : ∀ e ∈ log ++ more, Brought (log ++ more) e := by
  intro e he
  rcases List.mem_append.mp he with he | he
  · exact (hlog e he).append more
  · exact (hmore e he).append more

end Log

namespace World

theorem Step.brought {w w' : World} (h : Step w w') (hw : ∀ e ∈ w.log, w.log.Brought e) :
    ∀ e ∈ w'.log, w'.log.Brought e := by
  cases h with
  | create name description made =>
      refine Log.forall_brought_append hw fun e he => ?_
      rw [List.mem_singleton.mp he]
      trivial
  | clone live made =>
      refine Log.forall_brought_append hw fun e he => ?_
      obtain ⟨pair, -, rfl⟩ := List.mem_map.mp he
      trivial
  | add kind made known added =>
      refine Log.forall_brought_append hw fun e he => ?_
      rcases List.mem_cons.mp he with rfl | he
      · exact ⟨kind, _, rfl, made, known⟩
      · rw [List.mem_singleton.mp he]
        trivial
  | list live found =>
      refine Log.forall_brought_append hw fun e he => ?_
      rw [List.mem_singleton.mp he]
      trivial
  | change known offered done =>
      refine Log.forall_brought_append hw fun e he => ?_
      rw [List.mem_singleton.mp he]
      exact offered
  | argument _ _ | constant _ _ | refuse _ | drop | reorder _ => exact hw

/-- **Everything that was put into an operation could be had.** -/
theorem Reachable.brought {w : World} (h : w.Reachable) : ∀ e ∈ w.log, w.log.Brought e := by
  induction h with
  | refl => exact fun e he => absurd he List.not_mem_nil
  | tail _ step ih => exact step.brought ih

end World

/-! ### Handles that are stored -/

/-- A changed operation holds the handles of before and those that the change brings. -/
theorem Change.handles_apply {c : Change} {op op' : Operation Scenario} (h : c.apply op = .ok op')
    {P : Handle → Prop} (hop : ∀ a ∈ op.handles, P a) (hc : ∀ a ∈ c.handles, P a) :
    ∀ a ∈ op'.handles, P a := by
  obtain ⟨hlaunched, hfinished, htargets, hfirst, hsecond⟩ := Operation.forall_handles hop
  have hwait : ∀ a ∈ op.wait.references, P a := List.forall_mem_append.mpr ⟨hlaunched, hfinished⟩
  have hbodies : ∀ a ∈ op.firstBody ++ op.secondBody, P a :=
    List.forall_mem_append.mpr ⟨hfirst, hsecond⟩
  have hpayload : ∀ a ∈ op.payload.elim [] Payload.targets, P a := by
    cases hp : op.payload with
    | none => exact fun a ha => absurd ha List.not_mem_nil
    | some p => exact htargets p hp
  have hconfigured : ∀ p : Payload Scenario, (∀ a ∈ p.targets, P a) →
      op.configure p = .ok op' → ∀ a ∈ op'.handles, P a := by
    intro p hp h
    obtain ⟨-, rfl⟩ := Operation.configure_eq_ok.mp h
    exact List.forall_mem_append.mpr ⟨hwait, List.forall_mem_append.mpr ⟨hp, hbodies⟩⟩
  cases c with
  | payload p => exact hconfigured p hc h
  | condition condition =>
      simp only [apply, Operation.configureCondition] at h
      split at h
      · exact hconfigured _ (by simp [Payload.targets]) h
      · exact hconfigured _ (by simp [Payload.targets]) h
  | body body handles =>
      obtain ⟨_, -, h⟩ := Outcome.bind_eq_ok.mp h
      have hbody : ∀ first second : List Handle, (∀ a ∈ first ++ second, P a) →
          ∀ a ∈ Operation.handles { op with firstBody := first, secondBody := second }, P a :=
        fun first second hall =>
          List.forall_mem_append.mpr ⟨hwait, List.forall_mem_append.mpr ⟨hpayload, hall⟩⟩
      cases body with
      | ifTrue | eachRound =>
          cases h
          exact hbody _ _ (List.forall_mem_append.mpr ⟨hc, hsecond⟩)
      | ifFalse | atEnd =>
          cases h
          exact hbody _ _ (List.forall_mem_append.mpr ⟨hfirst, hc⟩)
  | label text =>
      cases h
      exact hop
  | wait w =>
      cases h
      exact List.forall_mem_append.mpr ⟨hc, List.forall_mem_append.mpr ⟨hpayload, hbodies⟩⟩

/-- The handles of an operation do not depend on the scenario that it carries. -/
theorem Operation.handles_withEmbedded {σ : Type} (op : Operation σ) (s : σ) :
    (op.withEmbedded s).handles = op.handles := by
  unfold withEmbedded
  split
  · rename_i hp
    unfold handles
    rw [hp]
    rfl
  · rfl

theorem Log.Becomes.handles_issued {log : Log} (hlog : ∀ e ∈ log, log.Brought e)
    {a b : Slot × Operation Scenario} (h : log.Becomes a b)
    (ha : ∀ h ∈ a.2.handles, log.Issued h) : ∀ h ∈ b.2.handles, log.Issued h := by
  induction h with
  | refl => exact ha
  | tail _ turn ih =>
      cases turn with
      | changed logged done => exact Change.handles_apply done ih (hlog _ logged).1
      | copied _ made =>
          obtain ⟨s, rfl⟩ := made
          rw [Operation.handles_withEmbedded]
          exact ih

namespace World

/-- **Every handle that a live scenario stores was given out.** -/
theorem Reachable.handles_issued {w : World} (hw : w.Reachable) {s : Scenario} (hs : s ∈ w.live)
    {op : Operation Scenario} (hop : op ∈ s.operations) : ∀ h ∈ op.handles, w.log.Issued h := by
  obtain ⟨position, hposition⟩ := List.mem_iff_getElem?.mp hop
  obtain ⟨source, added, hadded, hpath, -⟩ := hw.recorded.operations s hs position op hposition
  obtain ⟨kind, wait, rfl, -, hknown⟩ := hw.brought _ hadded
  refine Log.Becomes.handles_issued hw.brought hpath fun h hh => hknown h ?_
  simpa [Operation.handles, Operation.new] using hh

/-- No stored handle carries an identity that is yet to be given out. -/
theorem Reachable.handles_lt {w : World} (hw : w.Reachable) {s : Scenario} (hs : s ∈ w.live)
    {op : Operation Scenario} (hop : op ∈ s.operations) : ∀ h ∈ op.handles,
      h.scenario < w.counter := by
  intro h hh
  obtain ⟨slot, hissued⟩ := hw.handles_issued hs hop h hh
  obtain ⟨rfl, hborn, -⟩ := hw.recorded.issued slot h hissued
  exact hw.recorded.bound _ hborn

end World

end Testbed
