/-
Histories: all ways in which scenarios come to be.

A world holds the scenarios that somebody holds, and a log of what has happened to
them.  Scenarios are made, copied, put into operations and let go of; operations are
added and changed; handles are given out, and only handles that were given out can be
put anywhere.  A scenario is live if somebody holds it, or holds one in which it is
embedded at any depth.

The log is not part of any scenario and no step depends on more of it than on which
handles were given out.  It records which scenario was asked for a handle, and for
which of its operations; which scenario a copy was made of, and how many operations
that one had at the time; and which operation a change was made to.  In it a scenario
goes by its identity, which is why identities have to be distinct.
-/
import Testbed.Proofs.Scenario.Change
import Mathlib.Logic.Relation

namespace Testbed

/-- Waits that can be put together. -/
inductive Wait.Made : Wait → Prop
  | immediate : Made .immediate
  | launched {w : Wait} (h : Handle) (made : Made w) : Made (w.addLaunched h)
  | finished {w : Wait} (h : Handle) (made : Made w) : Made (w.addFinished h)
  | delayed {w : Wait} (delay : Duration) (made : Made w) : Made (w.withDelay delay)

/-- The operation at a position of a scenario. -/
structure Slot where
  scenario : Nat
  position : Nat
deriving DecidableEq

/-- What is remembered of a history. -/
inductive Event where
  | created (scenario : Nat)
  /-- A copy was made of a scenario that had `size` operations. -/
  | copied (copy source size : Nat)
  | added (slot : Slot) (operation : Operation Scenario)
  /-- A scenario gave out a handle for one of its operations. -/
  | issued (slot : Slot) (handle : Handle)
  | changed (slot : Slot) (change : Change)

/-- The scenario that came to be. -/
def Event.born? : Event → Option Nat
  | created scenario => some scenario
  | copied copy _ _ => some copy
  | _ => none

/-- What has happened, in order. -/
abbrev Log := List Event

namespace Log

/-- The scenarios that ever came to be. -/
def born (log : Log) : List Nat := log.filterMap Event.born?

/-- A handle was given out. -/
def Issued (log : Log) (h : Handle) : Prop := ∃ slot, .issued slot h ∈ log

/-- A change of which all parts can be had. -/
def Offers (log : Log) (c : Change) : Prop :=
  (∀ h ∈ c.handles, log.Issued h) ∧ ∀ w, c = .wait w → w.Made

variable {log : Log}

theorem Issued.append {h : Handle} (hissued : log.Issued h) (more : Log) :
    Issued (log ++ more) h := by
  obtain ⟨slot, hmem⟩ := hissued
  exact ⟨slot, List.mem_append_left _ hmem⟩

theorem Offers.append {c : Change} (hoffers : log.Offers c) (more : Log) :
    Offers (log ++ more) c :=
  ⟨fun h hh => (hoffers.1 h hh).append more, hoffers.2⟩

theorem offers_label (text : String) : log.Offers (.label text) := by
  simp [Offers, Change.handles]

theorem offers_condition (condition : Condition) : log.Offers (.condition condition) := by
  simp [Offers, Change.handles]

theorem offers_payload {p : Payload Scenario} (h : ∀ h ∈ p.targets, log.Issued h) :
    log.Offers (.payload p) :=
  ⟨h, by simp⟩

theorem offers_body {body : Operation.Body} {handles : List Handle}
    (h : ∀ h ∈ handles, log.Issued h) : log.Offers (.body body handles) :=
  ⟨h, by simp⟩

theorem issued_immediate (log : Log) : ∀ h ∈ Wait.immediate.references, log.Issued h := by
  simp [Wait.references, Wait.immediate]

end Log

/-- A scenario and all embedded ones were copied, member by member. -/
def Scenario.copies (s copy : Scenario) : Log :=
  (s.family.zip copy.family).map fun (original, copy) =>
    .copied copy.identity original.identity original.size

/-- The scenarios that somebody holds, and what has happened to them. -/
structure World where
  counter : IdentityCounter
  scenarios : List Scenario
  log : Log

namespace World

/-- The scenarios that are held, and those embedded in them. -/
def live (w : World) : List Scenario := w.scenarios.flatMap Scenario.family

/-- What is embedded in a live scenario is live. -/
theorem live_trans {w : World} {s t : Scenario} (hs : s ∈ w.live) (ht : t ∈ s.family) :
    t ∈ w.live := by
  obtain ⟨root, hroot, hmem⟩ := List.mem_flatMap.mp hs
  exact List.mem_flatMap.mpr ⟨root, hroot, Scenario.family_trans hmem ht⟩

/-- Nothing has happened yet. -/
def initial : World := ⟨1, [], []⟩

/-- Everything that can be done in a world. -/
inductive Step : World → World → Prop
  | create {w : World} (name description : String) {s : Scenario} {n : IdentityCounter}
      (made : (Scenario.new name description).run w.counter = (s, n)) :
      Step w ⟨n, s :: w.scenarios, w.log ++ [.created s.identity]⟩
  /-- Any scenario that can be seen can be copied, an embedded one as well. -/
  | clone {w : World} {s copy : Scenario} {n : IdentityCounter} (live : s ∈ w.live)
      (made : s.clone.run w.counter = (copy, n)) :
      Step w ⟨n, copy :: w.scenarios, w.log ++ s.copies copy⟩
  | argument {n : IdentityCounter} {s : Scenario} {rest : List Scenario} {log : Log}
      (name description : String) :
      Step ⟨n, s :: rest, log⟩ ⟨n, s.addArgument name description :: rest, log⟩
  | constant {n : IdentityCounter} {s : Scenario} {rest : List Scenario} {log : Log}
      (name : String) (value : Json) :
      Step ⟨n, s :: rest, log⟩ ⟨n, s.addConstant name value :: rest, log⟩
  | add {n : IdentityCounter} {s grown : Scenario} {rest : List Scenario} {log : Log}
      {h : Handle} (kind : Kind) {wait : Wait} (made : wait.Made)
      (known : ∀ h ∈ wait.references, log.Issued h)
      (added : s.addOperation kind wait = (h, grown)) :
      Step ⟨n, s :: rest, log⟩ ⟨n, grown :: rest,
        log ++ [.added ⟨s.identity, s.size⟩ (.new kind wait), .issued ⟨s.identity, s.size⟩ h]⟩
  | list {w : World} {s : Scenario} {position : Nat} {h : Handle} (live : s ∈ w.live)
      (found : s.handles[position]? = some h) :
      Step w ⟨w.counter, w.scenarios, w.log ++ [.issued ⟨s.identity, position⟩ h]⟩
  /-- A scenario that is put into an operation is held no longer. -/
  | change {n : IdentityCounter} {s changed : Scenario} {rest : List Scenario} {log : Log}
      {h : Handle} {c : Change} (known : log.Issued h) (offered : log.Offers c)
      (done : s.modifyOperation h c.apply = .ok changed) :
      Step ⟨n, s :: (c.embedded?.toList ++ rest), log⟩
        ⟨n, changed :: rest, log ++ [.changed ⟨s.identity, h.index⟩ c]⟩
  /-- A change that is refused changes nothing; a scenario that came with it is lost. -/
  | refuse {n : IdentityCounter} {s : Scenario} {rest : List Scenario} {log : Log} {h : Handle}
      {c : Change} {e : ScenarioError} (refused : s.modifyOperation h c.apply = .error e) :
      Step ⟨n, s :: (c.embedded?.toList ++ rest), log⟩ ⟨n, s :: rest, log⟩
  | drop {n : IdentityCounter} {s : Scenario} {rest : List Scenario} {log : Log} :
      Step ⟨n, s :: rest, log⟩ ⟨n, rest, log⟩
  /-- All other steps act on the first scenarios; any can be made the first. -/
  | reorder {n : IdentityCounter} {scenarios others : List Scenario} {log : Log}
      (perm : scenarios.Perm others) : Step ⟨n, scenarios, log⟩ ⟨n, others, log⟩

/-- A world that another one leads to. -/
abbrev Leads : World → World → Prop := Relation.ReflTransGen Step

/-- A world that some history leads to. -/
def Reachable (w : World) : Prop := initial.Leads w

end World

/-- A scenario that is live at some point of some history. -/
def Scenario.Reachable (s : Scenario) : Prop := ∃ w : World, w.Reachable ∧ s ∈ w.live

theorem World.Reachable.scenario {n : IdentityCounter} {s : Scenario} {rest : List Scenario}
    {log : Log} (h : World.Reachable ⟨n, s :: rest, log⟩) : s.Reachable :=
  ⟨_, h, List.mem_flatMap.mpr ⟨s, List.mem_cons_self, s.mem_family_self⟩⟩

/-! ### Putting scenarios together

A scenario is put together by declaring its names and adding its operations, each with all that
is set on it.  Histories that do this are made of the steps below. -/

namespace Scenario

/-- A scenario with one more operation at its end. -/
def withLast (s : Scenario) (op : Operation Scenario) : Scenario :=
  { s with operations := s.operations ++ [op] }

theorem modifyOperation_withLast (s : Scenario) {op op' : Operation Scenario} {c : Change}
    (h : c.apply op = .ok op') :
    (s.withLast op).modifyOperation (s.handleAt s.size) c.apply = .ok (s.withLast op') := by
  have howns : (s.withLast op).owns (s.handleAt s.size) = true :=
    (owns_iff _ _).mpr ⟨by simp [withLast, handleAt, size], Or.inl rfl⟩
  refine modifyOperation_eq_ok.mpr ⟨op, op', howns, List.getElem?_concat_length, h, ?_⟩
  simp [withLast, handleAt, size]

/-- What is logged when an operation is added and then changed. -/
def logLast (s : Scenario) (kind : Kind) (wait : Wait) (changes : List Change) : Log :=
  [.added ⟨s.identity, s.size⟩ (.new kind wait), .issued ⟨s.identity, s.size⟩ (s.handleAt s.size)]
    ++ changes.map (.changed ⟨s.identity, s.size⟩)

end Scenario

theorem Log.issued_logLast {log : Log} {s : Scenario} {kind : Kind} {wait : Wait}
    {changes : List Change} :
    Log.Issued (log ++ s.logLast kind wait changes) (s.handleAt s.size) :=
  ⟨⟨s.identity, s.size⟩, List.mem_append_right _ (by simp [Scenario.logLast])⟩

namespace World

variable {n : IdentityCounter} {rest : List Scenario}

/-- The first scenario can be copied. -/
theorem leads_copy {s copy : Scenario} {m : IdentityCounter} {log : Log}
    (made : s.clone.run n = (copy, m)) :
    Leads ⟨n, s :: rest, log⟩ ⟨m, copy :: s :: rest, log ++ s.copies copy⟩ :=
  .single (.clone (List.mem_flatMap.mpr ⟨s, List.mem_cons_self, s.mem_family_self⟩) made)

/-- Arguments can be declared one after the other. -/
theorem leads_arguments {log : Log} : ∀ (arguments : List (String × String)) (s : Scenario),
    Leads ⟨n, s :: rest, log⟩
      ⟨n, { s with arguments := s.arguments ++ arguments } :: rest, log⟩ := by
  intro arguments
  induction arguments with
  | nil =>
      intro s
      rw [List.append_nil]
      cases s
      exact .refl
  | cons argument more ih =>
      intro s
      have hrest := ih (s.addArgument argument.1 argument.2)
      rw [Scenario.addArgument, List.append_assoc] at hrest
      exact .head (.argument argument.1 argument.2) hrest

/-- The last operation can be changed again and again; the scenarios that come with the changes
are held no longer. -/
theorem leads_changes {s : Scenario} : ∀ (changes : List Change) {log : Log}
    {op op' : Operation Scenario}, log.Issued (s.handleAt s.size) →
    (∀ c ∈ changes, log.Offers c) → changes.foldlM (fun op c => c.apply op) op = .ok op' →
    Leads ⟨n, s.withLast op :: (changes.filterMap Change.embedded? ++ rest), log⟩
      ⟨n, s.withLast op' :: rest, log ++ changes.map (.changed ⟨s.identity, s.size⟩)⟩ := by
  intro changes
  induction changes with
  | nil =>
      intro log op op' hknown hoffers hdone
      cases hdone
      rw [List.map_nil, List.append_nil]
      exact .refl
  | cons c more ih =>
      intro log op op' hknown hoffers hdone
      obtain ⟨changed, hchanged, hmore⟩ := Outcome.bind_eq_ok.mp hdone
      have hembedded : (c :: more).filterMap Change.embedded?
          = c.embedded?.toList ++ more.filterMap Change.embedded? := by
        cases hc : c.embedded? with
        | none => exact List.filterMap_cons_none hc
        | some sub => exact List.filterMap_cons_some hc
      have hrest := ih (hknown.append [.changed ⟨s.identity, s.size⟩ c])
        (fun c' hc' => (hoffers c' (List.mem_cons_of_mem _ hc')).append _) hmore
      rw [List.append_assoc] at hrest
      rw [hembedded, List.append_assoc]
      exact .head (.change hknown (hoffers c List.mem_cons_self)
        (s.modifyOperation_withLast hchanged)) hrest

/-- An operation can be added with everything that is set on it. -/
theorem leads_withLast {s : Scenario} {log : Log} (kind : Kind) {wait : Wait} (made : wait.Made)
    (known : ∀ h ∈ wait.references, log.Issued h) (changes : List Change)
    {op : Operation Scenario} (offers : ∀ c ∈ changes, log.Offers c)
    (done : changes.foldlM (fun op c => c.apply op) (.new kind wait) = .ok op) :
    Leads ⟨n, s :: (changes.filterMap Change.embedded? ++ rest), log⟩
      ⟨n, s.withLast op :: rest, log ++ s.logLast kind wait changes⟩ := by
  have hadd : Leads ⟨n, s :: (changes.filterMap Change.embedded? ++ rest), log⟩
      ⟨n, s.withLast (.new kind wait) :: (changes.filterMap Change.embedded? ++ rest),
        log ++ s.logLast kind wait []⟩ :=
    .single (.add kind made known rfl)
  have hchanges := hadd.trans (leads_changes changes Log.issued_logLast
    (fun c hc => (offers c hc).append _) done)
  rw [List.append_assoc] at hchanges
  exact hchanges

end World

end Testbed
