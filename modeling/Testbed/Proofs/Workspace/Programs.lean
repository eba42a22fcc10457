/-
Programs that have nothing in common but the counter.

A program gives one call after the other, and decides on each by what it has seen of the
answers so far.  It works on scenarios and handles of its own.  When several programs take
turns, the identities of their scenarios come from one counter, so which identities a
program gets depends on what the others do; but identities cannot be read, and therefore a
program sees what it would see if it was alone.

Two runs are compared by a renaming of identities that is carried along.  A turn of the
program itself does the same in both runs, since what it does does not depend on
identities.  A turn of another program only moves the counter on: then the renaming moves on
with it, for the identities that are yet to be given out, and nothing that the program has
got carries one of these.
-/
import Testbed.Proofs.Workspace.Renaming
import Mathlib.Logic.Function.Iterate

namespace Testbed

open Outcome

/-! ### Calls -/

/-- What a program can do. -/
inductive Call where
  | command (command : WorkspaceCommand)
  /-- Sends a scenario along, and does not keep it. -/
  | embed (scenario operation source : String) (arguments : NamedTokens)
  /-- Keeps the scenario that an operation carries, as it is seen there. -/
  | inside (scenario operation as : String)
  /-- Keeps one of the handles that an operation holds. -/
  | stored (scenario operation : String) (position : Nat) (as : String)

namespace Workspace

/-- Keeps no scenario under a name. -/
def forget (w : Workspace) (name : String) : Workspace :=
  { w with scenarios := Keyed.keeping (· != name) w.scenarios }

theorem forget_rename {f : Nat → Nat} {n : IdentityCounter} (w : Workspace) (name : String) :
    (w.rename f n).forget name = (w.forget name).rename f n := by
  unfold forget rename
  rw [Keyed.keeping_map]

/-- A workspace whose next identities come from a counter. -/
def withCounter (w : Workspace) (n : IdentityCounter) : Workspace := { w with counter := n }

end Workspace

namespace Call

/-- Makes a call on a workspace. -/
def run (w : Workspace) : Call → Except CommandError (WorkspaceAnswer × Workspace)
  | command c => w.run c
  | embed scenario operation source arguments => do
    let s ← w.scenario source
    let w ← (w.forget source).change scenario operation
      (·.configure (Workspace.launchOf (.embedded s) arguments))
    return (.done, w)
  | inside scenario operation as => do
    let op ← w.lookUp scenario operation
    match op.embedded? with
    | some s => return (.done, w.keep as s)
    | none => throw (.missing as)
  | stored scenario operation position as => do
    let op ← w.lookUp scenario operation
    match op.handles[position]? with
    | some h => return (.position h.index, w.keepHandle as h)
    | none => throw (.missing as)

/-- How many identities a call takes. -/
def demand (w : Workspace) : Call → Nat
  | command c => w.demand c
  | _ => 0

variable {f : Nat → Nat} {n : IdentityCounter} (w : Workspace)

theorem demand_rename (call : Call) : call.demand (w.rename f n) = call.demand w := by
  cases call with
  | command c => exact w.demand_rename c
  | _ => rfl

/-- **A call does in a workspace under other identities what it does in the workspace.** -/
theorem run_rename (hf : Function.Injective f) (call : Call)
    (hfits : ∀ k < call.demand w, f (w.counter + k) = n + k) :
    call.run (w.rename f n) = (call.run w).map
      (Prod.map (WorkspaceAnswer.rename f) (Workspace.rename f (n + call.demand w))) := by
  cases call with
  | command c => exact Workspace.run_rename w hf c hfits
  | embed scenario operation source arguments =>
      rw [run, run, Workspace.scenario_rename]
      refine map_bind fun s => ?_
      have hpayload : (Workspace.launchOf (.embedded s) arguments).rename f
          = Workspace.launchOf (.embedded (s.rename f)) arguments := by
        rw [Workspace.launchOf_eq, Workspace.launchOf_eq]
        rfl
      rw [Workspace.forget_rename, Workspace.change_rename _ hf scenario operation
        (g := (·.configure (Workspace.launchOf (.embedded s) arguments)))
        fun op => hpayload ▸ op.configure_rename _]
      exact map_bind fun v => rfl
  | inside scenario operation as =>
      rw [run, run, Workspace.lookUp_rename w hf]
      refine map_bind fun op => ?_
      rw [Operation.embedded?_rename]
      cases op.embedded? with
      | none => rfl
      | some s =>
          exact congrArg (fun v => Except.ok (WorkspaceAnswer.done, v)) (w.keep_rename as s)
  | stored scenario operation position as =>
      rw [run, run, Workspace.lookUp_rename w hf]
      refine map_bind fun op => ?_
      rw [Operation.handles_rename, List.getElem?_map]
      cases op.handles[position]? with
      | none => rfl
      | some h =>
          exact congrArg (fun v => Except.ok (WorkspaceAnswer.position h.index, v))
            (w.keepHandle_rename as h)

/-- A call moves the counter on by the identities that it takes. -/
theorem counter_of_run {call : Call} {answer : WorkspaceAnswer} {w changed : Workspace}
    (h : call.run w = .ok (answer, changed)) : changed.counter = w.counter + call.demand w := by
  have hsame := run_rename w Function.injective_id call fun _ _ => rfl
  rw [Workspace.rename_id, h] at hsame
  exact congrArg (fun result => result.2.counter) (Except.ok.inj hsame)

end Call

/-! ### Programs -/

/-- An answer with nothing to tell identities by, since nobody can read them. -/
def WorkspaceAnswer.hidden (a : WorkspaceAnswer) : WorkspaceAnswer := a.rename fun _ => 0

theorem WorkspaceAnswer.hidden_rename (f : Nat → Nat) (a : WorkspaceAnswer) :
    (a.rename f).hidden = a.hidden := by
  cases a with
  | operation op => exact congrArg operation (op.rename_rename f fun _ => 0)
  | scenario s => exact congrArg scenario (s.rename_rename f fun _ => 0)
  | _ => rfl

/-- What a program sees of one call: an answer or an error. -/
abbrev Sight := Except CommandError WorkspaceAnswer

/-- What a program does next after what it has seen; `none` if it has come to its end. -/
abbrev Program := List Sight → Option Call

/-- A program that is being run: what it works on, and what it has seen so far. -/
structure Session where
  memory : Workspace
  seen : List Sight

namespace Session

/-- A program at its start: it keeps nothing and has seen nothing. -/
def start : Session := ⟨.empty, []⟩

/-- Lets a program give its next call.  The identities of a copy that was made for a call that is
refused are lost. -/
def turn (p : Program) (x : Session) (n : IdentityCounter) : Session × IdentityCounter :=
  match p x.seen with
  | none => (x, n)
  | some call =>
    let memory := x.memory.withCounter n
    match call.run memory with
    | .ok (answer, changed) => (⟨changed, x.seen ++ [.ok answer.hidden]⟩, changed.counter)
    | .error cause => (⟨memory, x.seen ++ [.error cause]⟩, n + call.demand memory)

end Session

/-- A program alone, after some of its turns. -/
def Program.alone (p : Program) (n : IdentityCounter) (turns : Nat) : Session × IdentityCounter :=
  (fun state => state.1.turn p state.2)^[turns] (.start, n)

/-- Several programs and the counter that they have in common. -/
structure Shared (ι : Type) where
  counter : IdentityCounter
  sessions : ι → Session

namespace Shared

variable {ι : Type} [DecidableEq ι]

/-- Lets one of the programs give its next call. -/
def turn (programs : ι → Program) (t : Shared ι) (i : ι) : Shared ι :=
  let (x, n) := (t.sessions i).turn (programs i) t.counter
  ⟨n, Function.update t.sessions i x⟩

/-- Programs that take turns in some order. -/
def interleave (programs : ι → Program) (n : IdentityCounter) (order : List ι) : Shared ι :=
  order.foldl (turn programs) ⟨n, fun _ => .start⟩

end Shared

/-! ### Two runs -/

/-- No identity in a workspace is one that is yet to be given out: exchanging these for others
changes nothing. -/
def Workspace.Settled (n : IdentityCounter) (w : Workspace) : Prop :=
  ∀ g : Nat → Nat, Function.Injective g → (∀ i < n, g i = i) → w.rename g n = w.withCounter n

theorem Workspace.Settled.mono {n m : IdentityCounter} {w : Workspace} (h : w.Settled n)
    (hle : n ≤ m) : w.Settled m := by
  intro g hg hfixed
  have hsame := h g hg fun i hi => hfixed i (Nat.lt_of_lt_of_le hi hle)
  exact congrArg (·.withCounter m) hsame

/-- Two sessions of one program with the same sights, where other identities are given out. -/
structure Session.Mirrors (x y : Session) (n m : IdentityCounter) : Prop where
  seen : y.seen = x.seen
  memory : ∃ f : Nat → Nat, Function.Injective f ∧ (∀ k, f (n + k) = m + k)
    ∧ y.memory.withCounter m = x.memory.rename f m
  settled : y.memory.Settled m

/-- An identity that was given out stays where it is when others are moved on. -/
def shift (n m : Nat) (i : Nat) : Nat := if i < n then i else i + (m - n)

theorem shift_injective (n m : Nat) : Function.Injective (shift n m) := by
  intro i j h
  unfold shift at h
  split at h <;> split at h <;> omega

theorem shift_add {n m : Nat} (hle : n ≤ m) (k : Nat) : shift n m (n + k) = m + k := by
  unfold shift
  rw [if_neg (by omega)]
  omega

namespace Session

variable {x y : Session} {n m : IdentityCounter}

theorem le_turn (p : Program) (x : Session) (n : IdentityCounter) : n ≤ (x.turn p n).2 := by
  unfold turn
  cases p x.seen with
  | none => exact Nat.le_refl n
  | some call =>
      dsimp only
      cases hrun : call.run (x.memory.withCounter n) with
      | ok result =>
          show n ≤ result.2.counter
          rw [Call.counter_of_run hrun]
          exact Nat.le_add_right n _
      | error cause => exact Nat.le_add_right n _

/-- Identities that are given out to others make no difference. -/
theorem Mirrors.later (h : Mirrors x y n m) {later : IdentityCounter} (hle : m ≤ later) :
    Mirrors x y n later := by
  obtain ⟨hseen, ⟨f, hf, hfits, hmemory⟩, hsettled⟩ := h
  have hshifted : y.memory.rename (shift m later) m = y.memory.withCounter m :=
    hsettled (shift m later) (shift_injective m later) fun i hi => if_pos hi
  refine ⟨hseen, ⟨shift m later ∘ f, (shift_injective m later).comp hf, fun k => ?_, ?_⟩, ?_⟩
  · show shift m later (f (n + k)) = later + k
    rw [hfits, shift_add hle]
  · calc y.memory.withCounter later
        = (y.memory.rename (shift m later) m).withCounter later := by rw [hshifted]; rfl
      _ = (y.memory.withCounter m).rename (shift m later) later := rfl
      _ = x.memory.rename (shift m later ∘ f) later := by
          rw [hmemory, Workspace.rename_rename]
  · exact hsettled.mono hle

/-- A call leaves nothing with an identity that is yet to be given out. -/
theorem settled_run {w changed : Workspace} {call : Call} {answer : WorkspaceAnswer}
    (hw : w.Settled w.counter) (h : call.run w = .ok (answer, changed)) :
    changed.Settled changed.counter := by
  intro g hg hfixed
  have hcounter := Call.counter_of_run h
  have hsame : w.rename g w.counter = w := by
    exact hw g hg fun i hi => hfixed i (by rw [hcounter]; exact Nat.lt_add_right _ hi)
  have hrun := Call.run_rename w hg call (n := w.counter) fun k hk =>
    hfixed _ (by rw [hcounter]; exact Nat.add_lt_add_left hk _)
  rw [hsame, h, ← hcounter] at hrun
  exact (congrArg Prod.snd (Except.ok.inj hrun)).symm

/-- **A turn does the same in both runs.** -/
theorem Mirrors.turn (h : Mirrors x y n m) (p : Program) :
    Mirrors (x.turn p n).1 (y.turn p m).1 (x.turn p n).2 (y.turn p m).2 := by
  obtain ⟨hseen, ⟨f, hf, hfits, hmemory⟩, hsettled⟩ := h
  unfold Session.turn
  rw [hseen]
  cases p x.seen with
  | none => exact ⟨hseen, ⟨f, hf, hfits, hmemory⟩, hsettled⟩
  | some call =>
      have hdemand := Call.demand_rename (f := f) (n := m) (x.memory.withCounter n) call
      have hrun := Call.run_rename (x.memory.withCounter n) hf call (n := m) fun k _ => hfits k
      have hrenamed : (x.memory.withCounter n).rename f m = y.memory.withCounter m := hmemory.symm
      rw [hrenamed] at hrun hdemand
      dsimp only
      cases hx : call.run (x.memory.withCounter n) with
      | error cause =>
          have hy : call.run (y.memory.withCounter m) = .error cause := by
            rw [hrun, hx]
            rfl
          rw [hy, hdemand]
          refine ⟨rfl, ⟨f, hf, fun k => ?_, ?_⟩, hsettled.mono (Nat.le_add_right m _)⟩
          · show f (n + call.demand (x.memory.withCounter n) + k) = _
            rw [Nat.add_assoc, hfits, Nat.add_assoc]
          · exact congrArg (·.withCounter (m + call.demand (x.memory.withCounter n))) hmemory
      | ok result =>
          obtain ⟨answer, changed⟩ := result
          have hcounter : changed.counter = n + call.demand (x.memory.withCounter n) :=
            Call.counter_of_run hx
          have hy : call.run (y.memory.withCounter m) = .ok (answer.rename f,
              changed.rename f (m + call.demand (x.memory.withCounter n))) := by
            rw [hrun, hx]
            rfl
          rw [hy]
          refine ⟨?_, ⟨f, hf, fun k => ?_, rfl⟩, settled_run hsettled hy⟩
          · show x.seen ++ [.ok (answer.rename f).hidden] = x.seen ++ [.ok answer.hidden]
            rw [WorkspaceAnswer.hidden_rename]
          · show f (changed.counter + k) = m + call.demand (x.memory.withCounter n) + k
            rw [hcounter, Nat.add_assoc, hfits, Nat.add_assoc]

theorem mirrors_start (n : IdentityCounter) : Mirrors start start n n :=
  ⟨rfl, ⟨id, Function.injective_id, fun _ => rfl, rfl⟩, fun _ _ _ => rfl⟩

end Session

namespace Shared

variable {ι : Type} [DecidableEq ι]

theorem mirrors_turns (programs : ι → Program) (i : ι) (order : List ι) : ∀ {t : Shared ι}
    {x : Session} {n : IdentityCounter}, x.Mirrors (t.sessions i) n t.counter →
    let alone := (fun state => state.1.turn (programs i) state.2)^[order.count i] (x, n)
    let together := order.foldl (turn programs) t
    alone.1.Mirrors (together.sessions i) alone.2 together.counter := by
  induction order with
  | nil => exact fun h => h
  | cons j rest ih =>
      intro t x n h
      rw [List.foldl_cons, List.count_cons]
      by_cases hturn : j = i
      · subst hturn
        have hsame : ((turn programs t j).sessions j)
            = ((t.sessions j).turn (programs j) t.counter).1 := Function.update_self ..
        rw [beq_self_eq_true, if_pos rfl, Function.iterate_succ_apply]
        refine ih ?_
        rw [hsame]
        exact h.turn (programs j)
      · have hother : (turn programs t j).sessions i = t.sessions i :=
          Function.update_of_ne (Ne.symm hturn) ..
        rw [if_neg (by simpa using hturn), Nat.add_zero]
        refine ih ?_
        rw [hother]
        exact h.later (Session.le_turn (programs j) (t.sessions j) t.counter)

/--
**What a program sees does not depend on what other programs do.**

However many programs take turns, in whatever order, each of them sees the answers and the
errors that it sees when it is alone: which handles are owned, where they point, what can be
changed, and what is built.  The identities of its scenarios are others, but nothing that it can do
tells them apart.
-/
theorem seen_interleave (programs : ι → Program) (order : List ι) (i : ι)
    (n : IdentityCounter) :
    ((interleave programs n order).sessions i).seen
      = ((programs i).alone n (order.count i)).1.seen :=
  (mirrors_turns programs i order (Session.mirrors_start n)).seen

/-- Makes a scenario and copies it. -/
def copier : Program := fun seen =>
  [Call.command (.create "a" "Reboot" ""), .command (.clone "a" "b")][seen.length]?

/-- The identities of its scenarios do depend on a second copy of the program. -/
example :
    let together := interleave (fun _ : Bool => copier) 1 [true, false, false, true]
    (together.sessions true).memory.scenarios.map (·.2.identity) = [1, 4]
      ∧ (copier.alone 1 2).1.memory.scenarios.map (·.2.identity) = [1, 2] := by
  exact ⟨rfl, rfl⟩

end Shared

end Testbed
