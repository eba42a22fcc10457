/-
The arguments of a launch.

Arguments are given to a launch one by one, and one that is given again is replaced in its
place.  A map of tokens keeps every entry that is put into it; there it is only in the object
that the map resolves to that a later entry takes the place of an earlier one.  Both ways lead
to the same object, in which each name stands where it was set first and has the value that it
was set to last.

They differ in what has to resolve.  A launch has forgotten what was replaced, so the tokens
that are left are all that counts; a map resolves every token, and fails if one fails.  For the
object both have the same description, `Rendered`, which says nothing of how it was found.
-/
import Testbed.Proofs.Scenario.Origins

namespace Testbed

open Outcome

/-! ### How launches are made -/

/-- A launch, and the calls that set its arguments when it was made, in order. -/
inductive Payload.MadeWith : Payload Scenario → NamedTokens → Prop
  | job (name : String) (entity : Token) : MadeWith (.startJob (.new name entity)) []
  | jobArgument {launch : JobLaunch} {calls : NamedTokens}
      (made : MadeWith (.startJob launch) calls) (name : String) (value : Token) :
      MadeWith (.startJob (launch.argument name value)) (calls ++ [(name, value)])
  | offset {launch : JobLaunch} {calls : NamedTokens}
      (made : MadeWith (.startJob launch) calls) (offset : Duration) :
      MadeWith (.startJob { launch with offset := offset }) calls
  | interval {launch : JobLaunch} {calls : NamedTokens}
      (made : MadeWith (.startJob launch) calls) (interval : Duration) :
      MadeWith (.startJob { launch with interval := some interval }) calls
  | scenario (scenario : SubScenario Scenario) : MadeWith (.startScenario (.new scenario)) []
  | scenarioArgument {launch : ScenarioLaunch Scenario} {calls : NamedTokens}
      (made : MadeWith (.startScenario launch) calls) (name : String) (value : Token) :
      MadeWith (.startScenario (launch.argument name value)) (calls ++ [(name, value)])

/-- The arguments that a payload holds for what it launches. -/
def Payload.arguments {σ : Type} : Payload σ → NamedTokens
  | startJob launch => launch.arguments
  | startScenario launch => launch.arguments
  | stopJob _ | stopJobs _ | stopScenario _ | reboot _ | branch _ | loop _ => []

/-- The object of arguments in an action, which stands under the name of the job or beside the
scenario. -/
def Document.Action.arguments? : Document.Action → Option Json
  | startJob job => job.name?.bind fun name => Keyed.get? name job.entries
  | startScenario _ arguments => some (.object arguments)
  | stopJob _ | stopJobs _ | stopScenario _ | reboot _ | branch .. | loop .. => none

namespace Payload.MadeWith

variable {p : Payload Scenario} {calls : NamedTokens}

/-- Every call is made on what the calls before it have left, and nothing else sets an argument. -/
theorem arguments_eq (h : p.MadeWith calls) : p.arguments = Keyed.ofList calls := by
  induction h with
  | job name entity => rfl
  | jobArgument _ name value ih =>
      rw [Keyed.ofList_concat, ← ih]
      rfl
  | offset _ _ ih => exact ih
  | interval _ _ ih => exact ih
  | scenario scenario => rfl
  | scenarioArgument _ name value ih =>
      rw [Keyed.ofList_concat, ← ih]
      rfl

theorem kind_eq (h : p.MadeWith calls) : p.kind = .startJob ∨ p.kind = .startScenario := by
  cases h <;> simp [kind]

end Payload.MadeWith

/-! ### What the calls come to -/

/-- Entries hold what calls have set: each name once, in the order in which the names were set
first, with the token that it was set to last. -/
structure Entered (calls entries : NamedTokens) : Prop where
  distinct : (Keyed.keys entries).Nodup
  ordered : Keyed.keys entries = (Keyed.keys calls).eraseDups
  last : ∀ name, Keyed.get? name entries = (Keyed.all name calls).getLast?

/-- An object shows what calls have set: each name once, in the order in which the names were set
first, with the value of the token that it was set to last. -/
structure Rendered (d : Declarations) (calls : NamedTokens) (members : Members) : Prop where
  distinct : (Keyed.keys members).Nodup
  ordered : Keyed.keys members = (Keyed.keys calls).eraseDups
  last : ∀ name, (Keyed.all name calls).getLast?.map (Token.resolve d)
    = (Keyed.get? name members).map .ok

theorem entered_ofList (calls : NamedTokens) : Entered calls (Keyed.ofList calls) :=
  ⟨Keyed.nodup_keys_ofList calls, Keyed.keys_ofList calls, fun name => Keyed.get?_ofList name calls⟩

section Objects

variable {d : Declarations} {calls : NamedTokens} {members : Members}

/-- What is left of the calls resolves to the object that shows them. -/
theorem resolveEntries_ofList_iff :
    Token.resolveEntries d (Keyed.ofList calls) = .ok members ↔ Rendered d calls members := by
  rw [Token.resolveEntries_eq_ok]
  have hentered := entered_ofList calls
  refine ⟨fun h => ?_, fun h => ?_⟩
  · have hkeys : Keyed.keys (Keyed.ofList calls) = Keyed.keys members := by
      have hkeys := congrArg Keyed.keys h
      rwa [Keyed.keys_map, Keyed.keys_map] at hkeys
    refine ⟨hkeys ▸ hentered.distinct, hkeys ▸ hentered.ordered, fun name => ?_⟩
    rw [← hentered.last, ← Keyed.get?_map, ← Keyed.get?_map, h]
  · -- with each name once, the names and their values are all that there is to entries
    refine Keyed.eq_of_get?_eq ?_ ?_ fun name => ?_
    · rw [Keyed.keys_map]
      exact hentered.distinct
    · rw [Keyed.keys_map, Keyed.keys_map, hentered.ordered, h.ordered]
    · rw [Keyed.get?_map, Keyed.get?_map, hentered.last, h.last]

/-- At most one object shows the calls. -/
theorem Rendered.unique {others : Members} (h : Rendered d calls members)
    (h' : Rendered d calls others) : members = others := by
  rw [← resolveEntries_ofList_iff] at h h'
  exact Except.ok.inj (h.symm.trans h')

/-- Calls that all resolve may be resolved before the names collapse, or after it. -/
theorem Rendered.of_resolveEntries {found : Members}
    (h : Token.resolveEntries d calls = .ok found) : Rendered d calls (Keyed.ofList found) := by
  rw [Token.resolveEntries_eq_ok] at h
  rw [← resolveEntries_ofList_iff, Token.resolveEntries_eq_ok, ← Keyed.ofList_map, h,
    Keyed.ofList_map]

/-- The map of all calls resolves if every call does, those included that were replaced. -/
theorem resolve_map_iff {v : Json} : (Token.map calls).resolve d = .ok v
    ↔ (∀ call ∈ calls, call.2.Resolvable d.arguments (Keyed.keys d.constants))
      ∧ ∃ members, Rendered d calls members ∧ v = .object members := by
  rw [Token.resolve, bind_eq_ok, ← Token.succeeds_resolveEntries]
  refine ⟨?_, ?_⟩
  · intro h
    obtain ⟨found, hfound, hv⟩ := h
    exact ⟨⟨found, hfound⟩, _, .of_resolveEntries hfound, (pure_eq_ok.mp hv).symm⟩
  · intro h
    obtain ⟨⟨found, hfound⟩, members, hmembers, rfl⟩ := h
    rw [hmembers.unique (.of_resolveEntries hfound)]
    exact ⟨found, hfound, rfl⟩

end Objects

/-! ### Launches -/

namespace Scenario

variable {d : Declarations} {position : Nat} {calls : NamedTokens}

/-- What is left of the calls has each name once, so nothing more collapses when it is built. -/
theorem resolveNamed_ofList_iff {members : Members} :
    resolveNamed d position (Keyed.ofList calls) = .ok members ↔ Rendered d calls members := by
  rw [resolveNamed, bind_eq_ok]
  simp only [resolveEntries_eq_ok, resolveEntries_ofList_iff, pure_eq_ok]
  refine ⟨?_, fun h => ⟨members, h, Keyed.ofList_of_nodup h.distinct⟩⟩
  intro h
  obtain ⟨found, hfound, rfl⟩ := h
  rwa [Keyed.ofList_of_nodup hfound.distinct]

/-- Entries that calls have left, and the map of all the calls, are resolved to the same object. -/
structure ResolvesAlike (d : Declarations) (position : Nat) (calls entries : NamedTokens) :
    Prop where
  /-- The object that is built of the entries is the one that shows the calls. -/
  built : ∀ members, resolveNamed d position entries = .ok members ↔ Rendered d calls members
  /-- Only calls that were not replaced have to resolve for it. -/
  succeeds : Succeeds (resolveNamed d position entries)
    ↔ ∀ entry ∈ entries, entry.2.Resolvable d.arguments (Keyed.keys d.constants)
  /-- The map gives this very object, but all calls have to resolve. -/
  map : ∀ v, (Token.map calls).resolve d = .ok v
    ↔ (∀ call ∈ calls, call.2.Resolvable d.arguments (Keyed.keys d.constants))
      ∧ ∃ members, resolveNamed d position entries = .ok members ∧ v = .object members

theorem resolvesAlike_ofList (d : Declarations) (position : Nat) (calls : NamedTokens) :
    ResolvesAlike d position calls (Keyed.ofList calls) := by
  refine ⟨fun members => resolveNamed_ofList_iff, succeeds_resolveNamed_iff, fun v => ?_⟩
  simp only [resolveNamed_ofList_iff]
  exact resolve_map_iff

/-- The action of a launch has the object that its arguments resolve to. -/
theorem Enacts.arguments?_eq {s : Scenario} {op : Operation Scenario} {built : Option Built}
    {p : Payload Scenario} {action : Document.Action} (h : s.Enacts d position op built p action)
    (hp : p.kind = .startJob ∨ p.kind = .startScenario) : ∃ members,
      resolveNamed d position p.arguments = .ok members
        ∧ action.arguments? = some (.object members) := by
  cases h with
  | startJob hjob =>
      obtain ⟨-, entity, members, -, hmembers, rfl⟩ := buildJob_eq_ok hjob
      exact ⟨members, hmembers, if_pos rfl⟩
  | startScenario _ hmembers => exact ⟨_, hmembers, rfl⟩
  | _ => simp [Payload.kind] at hp

/--
**A launch holds each argument once, with the value that it was set to last.**

Its entries are the names in the order in which they were set first.  The object that is built
from them has exactly these names in this order, and so has the action of every operation with
this launch in a document that was built.  Resolving the map of all calls gives the same object,
whenever it gives one.
-/
theorem launch_holds_last {p : Payload Scenario} {calls : NamedTokens} (h : p.MadeWith calls) :
    Entered calls p.arguments
      ∧ (∀ d position, ResolvesAlike d position calls p.arguments)
      ∧ ∀ (s : Scenario) (document : Document), s.build = .ok document →
        ∀ (i : Nat) (op : Operation Scenario), s.operations[i]? = some op → op.payload = some p →
          ∃ f members, document.functions[i]? = some f
            ∧ f.action.arguments? = some (.object members)
            ∧ Rendered s.declarations calls members := by
  rw [h.arguments_eq]
  refine ⟨entered_ofList calls, fun d position => resolvesAlike_ofList d position calls,
    fun s document hd i op hop hp => ?_⟩
  obtain ⟨q, action, hq, henacts, hf⟩ := (functions_of_build hd).2 i op hop
  obtain rfl : q = p := Option.some.inj (hq.symm.trans hp)
  obtain ⟨members, hmembers, harguments⟩ := henacts.arguments?_eq h.kind_eq
  rw [h.arguments_eq, resolveNamed_ofList_iff] at hmembers
  exact ⟨_, members, hf, harguments, hmembers⟩

/-- Calls that set the count twice, at first to a limit. -/
def limitedCalls : NamedTokens :=
  [("count", .placeholder "limit"), ("target", .argument "agent"), ("count", .literal (.ofNat 10))]

/-- What is left of them in a job that starts late and again and again. -/
def limitedPing : Payload Scenario :=
  .startJob ⟨"fping", .literal (.string "server"), .ofSeconds 1, some (.ofSeconds 2),
    [("count", .literal (.ofNat 10)), ("target", .argument "agent")]⟩

theorem limitedPing_madeWith : limitedPing.MadeWith limitedCalls := by
  have hjob : Payload.MadeWith (.startJob (.new "fping" (.literal (.string "server")))) [] :=
    .job _ _
  have hcount := (hjob.jobArgument "count" (.placeholder "limit")).interval (.ofSeconds 2)
  have htarget := (hcount.jobArgument "target" (.argument "agent")).offset (.ofSeconds 1)
  exact htarget.jobArgument "count" (.literal (.ofNat 10))

/-- A scenario with this job, in which there is no limit. -/
def unlimited : Scenario :=
  ⟨1, [], "Ping", "", [("agent", "Whom to ping")], [],
    [⟨.startJob, none, some limitedPing, .immediate, [], []⟩]⟩

/-- Its document. -/
def unlimitedDocument : Document :=
  ⟨"Ping", "", [("agent", .string "Whom to ping")], [],
    [⟨0, "#0", .startJob ⟨.string "server", .integer 1, some (.integer 2),
      [("fping", .object [("count", .ofNat 10), ("target", .string "$agent")])]⟩, .immediate⟩]⟩

theorem unlimited_build : unlimited.build = .ok unlimitedDocument := by cbv

/-- The limit was replaced, so the job is built without one; the map of all calls asks for it, and
once it is declared gives the object that is built. -/
theorem limitedPing_holds_last :
    limitedPing.MadeWith limitedCalls ∧ unlimited.build = .ok unlimitedDocument
      ∧ Entered limitedCalls limitedPing.arguments
      ∧ Rendered unlimited.declarations limitedCalls
        [("count", .ofNat 10), ("target", .string "$agent")]
      ∧ ¬ Succeeds ((Token.map limitedCalls).resolve unlimited.declarations)
      ∧ (Token.map limitedCalls).resolve ⟨["agent", "limit"], []⟩
        = .ok (.object [("count", .ofNat 10), ("target", .string "$agent")]) := by
  obtain ⟨hentered, halike, hdocument⟩ := launch_holds_last limitedPing_madeWith
  obtain ⟨f, members, hf, harguments, hrendered⟩ :=
    hdocument unlimited unlimitedDocument unlimited_build 0 _ rfl rfl
  cases hf
  cases harguments
  refine ⟨limitedPing_madeWith, unlimited_build, hentered, hrendered, ?_, ?_⟩
  · intro h
    obtain ⟨v, hv⟩ := h
    obtain ⟨hall, -⟩ := ((halike unlimited.declarations 0).map v).mp hv
    cases hall _ List.mem_cons_self with
    | placeholder known => exact absurd known (by decide)
  · refine ((halike ⟨["agent", "limit"], []⟩ 0).map _).mpr ⟨?_, _, rfl, rfl⟩
    refine List.forall_mem_cons.mpr ⟨.placeholder (by decide), ?_⟩
    refine List.forall_mem_cons.mpr ⟨.argument (by decide), ?_⟩
    exact List.forall_mem_singleton.mpr (.literal _)

end Scenario

end Testbed
