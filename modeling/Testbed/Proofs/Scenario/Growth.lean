/-
Scenarios that grow.

A scenario grows when names are declared, when operations are added, and when those that were
added are changed.  If it can be built before and afterwards, then nothing of the first
document is rewritten: it is the beginning of the second one, table by table.

Two things could stand in the way.  A handle might come to point elsewhere; but operations are
added at the end, so a handle that was good is good for the operation that it was good for.
And a name might come to mean something else, since placeholders are looked up among the
constants first, so that a new constant takes over the name of an argument.  Then the name is
declared twice, and the grown scenario cannot be built.

With this every step of a build gives what it gave before (`Persists`), and so do steps that
are put together from such steps.
-/
import Testbed.Proofs.Scenario.Origins
import Testbed.Proofs.Scenario.Settings

namespace Testbed

/-! ### Steps that give what others give -/

namespace Outcome

variable {ε α β : Type}

/-- What the first step gives, the second one gives as well. -/
def Persists (x y : Except ε α) : Prop := ∀ a, x = .ok a → y = .ok a

theorem Persists.refl (x : Except ε α) : Persists x x := fun _ h => h

theorem Persists.bind {x y : Except ε α} {f g : α → Except ε β} (h : Persists x y)
    (hnext : ∀ a, Persists (f a) (g a)) : Persists (x >>= f) (y >>= g) := by
  intro b hb
  obtain ⟨a, ha, hb⟩ := bind_eq_ok.mp hb
  exact bind_eq_ok.mpr ⟨a, h a ha, hnext a b hb⟩

/-- What is done with the result is the same. -/
theorem Persists.then {x y : Except ε α} (h : Persists x y) (f : α → Except ε β) :
    Persists (x >>= f) (y >>= f) :=
  h.bind fun a => .refl (f a)

theorem Persists.mapM {f g : α → Except ε β} (h : ∀ a, Persists (f a) (g a)) (items : List α) :
    Persists (items.mapM f) (items.mapM g) := by
  intro results hresults
  exact mapM_eq_ok.mpr ((mapM_eq_ok.mp hresults).imp fun a b => h a b)

end Outcome

open Outcome

/-! ### Names -/

/-- Names that were declared mean what they did, and arguments have not become constants. -/
structure Declarations.Within (d d' : Declarations) : Prop where
  constant : ∀ name value, d.constant? name = some value → d'.constant? name = some value
  argument : ∀ name, d.isArgument name = true →
    d'.isArgument name = true ∧ (d.constant? name = none → d'.constant? name = none)

namespace Declarations.Within

variable {d d' : Declarations}

theorem resolveConstant (h : d.Within d') (name : String) :
    Persists (Token.resolveConstant d name) (Token.resolveConstant d' name) := by
  unfold Token.resolveConstant
  cases hvalue : d.constant? name with
  | none =>
      intro v hv
      cases hv
  | some value =>
      rw [h.constant name value hvalue]
      exact .refl _

theorem resolveArgument (h : d.Within d') (name : String) :
    Persists (Token.resolveArgument d name) (Token.resolveArgument d' name) := by
  unfold Token.resolveArgument
  by_cases hname : d.isArgument name = true
  · rw [if_pos hname, if_pos (h.argument name hname).1]
    exact .refl _
  · rw [if_neg hname]
    intro v hv
    cases hv

/-- A placeholder stays a reference to the same constant or argument. -/
theorem resolvePlaceholder (h : d.Within d') (name : String) :
    Persists ((Token.placeholder name).resolve d) ((Token.placeholder name).resolve d') := by
  intro v hv
  rw [Token.resolve] at hv ⊢
  cases hvalue : d.constant? name with
  | some value =>
      rw [hvalue] at hv
      rwa [h.constant name value hvalue]
  | none =>
      rw [hvalue] at hv
      have hargument : d.isArgument name = true := by
        by_contra hno
        rw [Token.resolveArgument, if_neg hno] at hv
        cases hv
      rw [(h.argument name hargument).2 hvalue]
      exact h.resolveArgument name v hv

mutual

/-- **A token that was resolved resolves to the same value.** -/
theorem resolve (h : d.Within d') : (t : Token) → Persists (t.resolve d) (t.resolve d')
  | .literal _ => .refl _
  | .placeholder name => h.resolvePlaceholder name
  | .constant name => h.resolveConstant name
  | .argument name => h.resolveArgument name
  | .list items => (h.resolveItems items).then _
  | .map entries => (h.resolveEntries entries).then _

theorem resolveItems (h : d.Within d') : (items : List Token) →
    Persists (Token.resolveItems d items) (Token.resolveItems d' items)
  | [] => .refl _
  | t :: rest => (h.resolve t).bind fun _ => (h.resolveItems rest).then _

theorem resolveEntries (h : d.Within d') : (entries : List (String × Token)) →
    Persists (Token.resolveEntries d entries) (Token.resolveEntries d' entries)
  | [] => .refl _
  | (_, t) :: rest => (h.resolve t).bind fun _ => (h.resolveEntries rest).then _

end

theorem buildOperand (h : d.Within d') (o : Operand) : Persists (o.build d) (o.build d') := by
  cases o with
  | value token => exact (h.resolve token).then _
  | database name key property => exact (h.resolve key).then _
  | statistic measurement field => exact (h.resolve measurement).then _

mutual

theorem buildTree (h : d.Within d') : (c : Condition) → Persists (c.build d) (c.build d')
  | .binary _ left right => (h.buildExpression left).bind fun _ => (h.buildExpression right).then _
  | .negation child => (h.buildExpression child).then _

theorem buildExpression (h : d.Within d') : (e : Expression) → Persists (e.build d) (e.build d')
  | .operand o => h.buildOperand o
  | .condition c => h.buildTree c

end

/-! ### Parts of actions -/

variable (h : d.Within d') (position : Nat)

include h

theorem resolveToken (t : Token) : Persists (Scenario.resolveToken d position t)
    (Scenario.resolveToken d' position t) := fun v hv =>
  Scenario.resolveToken_eq_ok.mpr (h.resolve t v (Scenario.resolveToken_eq_ok.mp hv))

theorem buildCondition (c : Condition) : Persists (Scenario.buildCondition d position c)
    (Scenario.buildCondition d' position c) := fun v hv =>
  Scenario.buildCondition_eq_ok.mpr (h.buildTree c v (Scenario.buildCondition_eq_ok.mp hv))

theorem resolveNamed (entries : NamedTokens) : Persists (Scenario.resolveNamed d position entries)
    (Scenario.resolveNamed d' position entries) := fun _ hmembers =>
  Scenario.resolveNamed_eq_ok.mpr
    (h.resolve (.map entries) _ (Scenario.resolveNamed_eq_ok.mp hmembers))

theorem buildJob (launch : JobLaunch) : Persists (Scenario.buildJob d position launch)
    (Scenario.buildJob d' position launch) := by
  unfold Scenario.buildJob
  split
  · exact .refl _
  · exact (h.resolveNamed position launch.arguments).bind fun _ =>
      (h.resolveToken position launch.entity).then _

end Declarations.Within

namespace Scenario

/-! ### Growing -/

/-- What can be added to a scenario, and calls to operations. -/
inductive Addition where
  | argument (name description : String)
  | constant (name : String) (value : Json)
  | operation (kind : Kind) (wait : Wait)
  | call (call : Call)

/-- An addition leaves alone the first operations, up to some number. -/
def Addition.Spares (size : Nat) : Addition → Prop
  | argument .. => True
  | constant .. => True
  | operation .. => True
  | call c => size ≤ c.handle.index

/-- What an addition makes of a scenario. -/
def add (s : Scenario) : Addition → Scenario
  | .argument name description => s.addArgument name description
  | .constant name value => s.addConstant name value
  | .operation kind wait => (s.addOperation kind wait).2
  | .call c => s.called c

/-- What additions make of a scenario, one after the other. -/
def grow (s : Scenario) (additions : List Addition) : Scenario := additions.foldl add s

/-- A scenario has grown from another one: whatever was there is where it was. -/
structure GrownFrom (s t : Scenario) : Prop where
  identity : t.identity = s.identity
  ancestry : t.ancestry = s.ancestry
  arguments : s.arguments <+: t.arguments
  constants : s.constants <+: t.constants
  operations : ∀ (i : Nat) op, s.operations[i]? = some op → t.operations[i]? = some op

variable {s t : Scenario}

theorem GrownFrom.refl (s : Scenario) : s.GrownFrom s :=
  ⟨rfl, rfl, List.prefix_rfl, List.prefix_rfl, fun _ _ hop => hop⟩

/-- A call to an operation that was added leaves the others as they are. -/
theorem GrownFrom.called (h : s.GrownFrom t) {c : Call} (hspares : s.size ≤ c.handle.index) :
    s.GrownFrom (t.called c) := by
  obtain ⟨heq, hoperations⟩ := called_cases t c
  have hkept : ∀ (i : Nat) op, s.operations[i]? = some op →
      (t.called c).operations[i]? = some op := by
    intro i op hop
    have hlt : i < s.size := (List.getElem?_eq_some_iff.mp hop).1
    have hapart : ¬ t.Reaches i c := fun hreaches => by
      have hi := hreaches.2
      omega
    rw [hoperations, if_neg hapart]
    exact h.operations i op hop
  generalize hnew : (t.called c).operations = operations at heq hkept
  rw [heq]
  exact ⟨h.identity, h.ancestry, h.arguments, h.constants, hkept⟩

theorem GrownFrom.add (h : s.GrownFrom t) {a : Addition} (hspares : a.Spares s.size) :
    s.GrownFrom (t.add a) := by
  cases a with
  | argument name description =>
      exact { h with arguments := h.arguments.trans (List.prefix_append _ _) }
  | constant name value =>
      exact { h with constants := h.constants.trans (List.prefix_append _ _) }
  | operation kind wait =>
      refine { h with operations := fun i op hop => ?_ }
      have hold := h.operations i op hop
      rw [← hold]
      exact List.getElem?_append_left (List.getElem?_eq_some_iff.mp hold).1
  | call c => exact h.called hspares

theorem grownFrom_grow (s : Scenario) (additions : List Addition)
    (hspare : ∀ a ∈ additions, a.Spares s.size) : s.GrownFrom (s.grow additions) := by
  induction additions using List.reverseRecOn with
  | nil => exact .refl s
  | append_singleton additions a ih =>
      obtain ⟨hbefore, hlast⟩ := List.forall_mem_append.mp hspare
      rw [grow, List.foldl_concat]
      exact (ih hbefore).add (hlast a (List.mem_singleton_self a))

/-! ### What a grown scenario builds -/

/-- If no name is declared twice, the tables of a document hold what was declared. -/
theorem argumentTable_of_names
    (h : (s.arguments.map Prod.fst ++ Keyed.keys s.constants).Nodup) :
    s.argumentTable = s.arguments.map fun (name, text) => (name, .string text) := by
  refine Keyed.ofList_of_nodup ?_
  rw [Keyed.keys, List.map_map]
  exact (List.nodup_append.mp h).1

theorem constantTable_of_names
    (h : (s.arguments.map Prod.fst ++ Keyed.keys s.constants).Nodup) :
    s.constantTable = s.constants :=
  Keyed.ofList_of_nodup (List.nodup_append.mp h).2.1

namespace GrownFrom

theorem owns (h : s.GrownFrom t) {handle : Handle} (howns : s.owns handle = true) :
    t.owns handle = true := by
  rw [owns_iff] at howns ⊢
  obtain ⟨hlt, hissuer⟩ := howns
  have hop := h.operations _ _ (List.getElem?_eq_getElem hlt)
  rw [h.identity, h.ancestry]
  exact ⟨(List.getElem?_eq_some_iff.mp hop).1, hissuer⟩

theorem resolve (h : s.GrownFrom t) (handle : Handle) :
    Persists (s.resolve handle) (t.resolve handle) := by
  intro position hposition
  obtain ⟨howns, hindex⟩ := resolve_eq_ok.mp hposition
  exact resolve_eq_ok.mpr ⟨h.owns howns, hindex⟩

theorem resolveAll (h : s.GrownFrom t) (handles : List Handle) :
    Persists (s.resolveAll handles) (t.resolveAll handles) :=
  .mapM h.resolve handles

/-- A handle points at the operation that it pointed at. -/
theorem operation (h : s.GrownFrom t) (handle : Handle) :
    Persists (s.operation handle) (t.operation handle) := by
  intro op hop
  obtain ⟨howns, hfound⟩ := operation_eq_ok.mp hop
  exact operation_eq_ok.mpr ⟨h.owns howns, h.operations _ op hfound⟩

theorem resolveTarget (h : s.GrownFrom t) (position : Nat) (kind : Kind) (target : Handle) :
    Persists (s.resolveTarget position kind target) (t.resolveTarget position kind target) :=
  (h.resolve target).bind fun _ => (h.operation target).then _

/-- **An operation that got an action gets the same one.** -/
theorem buildAction (h : s.GrownFrom t) {d d' : Declarations} (hd : d.Within d') (position : Nat)
    (op : Operation Scenario) (built : Option Built) :
    Persists (s.buildAction d position op built) (t.buildAction d' position op built) := by
  unfold Scenario.buildAction
  cases op.payload with
  | none => exact .refl _
  | some p =>
      cases p with
      | startJob launch => exact (hd.buildJob position launch).then _
      | stopJob target => exact (h.resolveTarget position op.kind target).then _
      | stopJobs targets => exact (Persists.mapM (h.resolveTarget position op.kind) targets).then _
      | startScenario launch =>
          exact (Persists.refl _).bind fun _ => (hd.resolveNamed position launch.arguments).then _
      | stopScenario target => exact (h.resolveTarget position op.kind target).then _
      | reboot entity => exact (hd.resolveToken position entity).then _
      | branch condition =>
          exact (hd.buildCondition position condition).bind fun _ =>
            (h.resolveAll op.firstBody).bind fun _ => (h.resolveAll op.secondBody).then _
      | loop condition =>
          exact (hd.buildCondition position condition).bind fun _ =>
            (h.resolveAll op.firstBody).bind fun _ => (h.resolveAll op.secondBody).then _

/-! ### Names of a grown scenario -/

/-- If the grown scenario declares no name twice, names mean what they did. -/
theorem within (h : s.GrownFrom t)
    (hnames : (t.arguments.map Prod.fst ++ Keyed.keys t.constants).Nodup) :
    s.declarations.Within t.declarations := by
  obtain ⟨harguments, hconstants, hapart⟩ := List.nodup_append.mp hnames
  have hsnames : (Keyed.keys s.constants).Nodup :=
    hconstants.sublist (h.constants.map Prod.fst).sublist
  have hs : ∀ name, s.declarations.constant? name = Keyed.get? name s.constants := fun name => by
    rw [Declarations.constant?, declarations, Declarations.ofLists, Keyed.ofList_of_nodup hsnames]
  have ht : ∀ name, t.declarations.constant? name = Keyed.get? name t.constants := fun name => by
    rw [Declarations.constant?, declarations, Declarations.ofLists,
      Keyed.ofList_of_nodup hconstants]
  refine ⟨fun name value hvalue => ?_, fun name hname => ?_⟩
  · rw [ht]
    exact Keyed.get?_of_mem hconstants
      (h.constants.subset (Keyed.mem_of_get?_eq_some (hs name ▸ hvalue)))
  · have hmem : name ∈ t.arguments.map Prod.fst :=
      (h.arguments.map Prod.fst).subset (List.contains_iff_mem.mp hname)
    refine ⟨List.contains_iff_mem.mpr hmem, fun _ => ?_⟩
    -- the name of an argument cannot be that of a constant too
    rw [ht, Keyed.get?_eq_none_iff]
    exact fun hconstant => hapart name hmem name hconstant rfl

/-! ### Documents -/

variable {d d' : Document}

/-- The functions of the operations that were there are the same, and come first. -/
theorem functions_prefix (h : s.GrownFrom t) (hd : s.build = .ok d) (hd' : t.build = .ok d') :
    d.functions <+: d'.functions := by
  obtain ⟨-, -, -, functions, hfunctions, rfl⟩ := build_eq_ok.mp hd
  obtain ⟨hnames, -, -, functions', hfunctions', rfl⟩ := build_eq_ok.mp hd'
  obtain ⟨hlength, hall⟩ := buildFunctions_eq_ok _ _ hfunctions
  obtain ⟨-, hall'⟩ := buildFunctions_eq_ok _ _ hfunctions'
  refine List.prefix_iff_getElem?.mpr fun i hi => ?_
  have hop := List.getElem?_eq_getElem (hlength ▸ hi)
  obtain ⟨action, haction, hf⟩ := hall i _ hop
  obtain ⟨action', haction', hf'⟩ := hall' i _ (h.operations i _ hop)
  have hsame := h.buildAction (h.within hnames) _ _ _ action haction
  cases haction'.symm.trans hsame
  rw [hf', ← hf, List.getElem?_eq_getElem hi]

/-- Tables hold what was declared, and so begin with what was declared before. -/
theorem tables_prefix (h : s.GrownFrom t) (hd : s.build = .ok d) (hd' : t.build = .ok d') :
    d.arguments <+: d'.arguments ∧ d.constants <+: d'.constants := by
  obtain ⟨hs, -, -, _, -, rfl⟩ := build_eq_ok.mp hd
  obtain ⟨ht, -, -, _, -, rfl⟩ := build_eq_ok.mp hd'
  dsimp only
  rw [argumentTable_of_names hs, argumentTable_of_names ht, constantTable_of_names hs,
    constantTable_of_names ht]
  exact ⟨h.arguments.map _, h.constants⟩

end GrownFrom

/--
**Growing a scenario rewrites nothing of its document.**

Names may be declared and operations added, and those that were added may be changed in every
way.  If the grown scenario can be built, its document begins with the functions, the arguments
and the constants of the document from before, in their order.
-/
theorem build_grow {s : Scenario} {d d' : Document} (hd : s.build = .ok d)
    (additions : List Addition) (hspare : ∀ a ∈ additions, a.Spares d.functions.length)
    (hd' : (s.grow additions).build = .ok d') :
    d'.functions.take d.functions.length = d.functions ∧ d.arguments <+: d'.arguments
      ∧ d.constants <+: d'.constants := by
  have hsize : d.functions.length = s.size := (functions_of_build hd).1
  have hgrown := grownFrom_grow s additions (hsize ▸ hspare)
  exact ⟨(List.prefix_iff_eq_take.mp (hgrown.functions_prefix hd hd')).symm,
    hgrown.tables_prefix hd hd'⟩

/-- A second reboot, which waits for the first one and gets a label. -/
def oneMoreReboot : List Addition :=
  [.argument "site" "Where it stands", .operation .reboot ⟨.zero, [], [⟨1, 0⟩]⟩,
    .constant "spare" (.string "agent-2"),
    .call ⟨⟨1, 1⟩, .payload (.reboot (.placeholder "spare"))⟩, .call ⟨⟨1, 1⟩, .label "Spare"⟩]

/-- The document with the second reboot. -/
def oneMoreRebootDocument : Document :=
  ⟨"Reboot", "", [("agent", .string "What to reboot"), ("site", .string "Where it stands")],
    [("spare", .string "agent-2")], [⟨0, "#0", .reboot (.string "$agent"), .immediate⟩,
      ⟨1, "Spare", .reboot (.string "agent-2"), ⟨.integer 0, [], [0]⟩⟩]⟩

theorem oneMoreReboot_build :
    (rebootAgent.grow oneMoreReboot).build = .ok oneMoreRebootDocument := by cbv

/-- The first reboot is the same in both documents. -/
theorem rebootAgent_grow :
    rebootAgent.Reachable ∧ rebootAgent.build = .ok rebootAgentDocument
      ∧ (∀ a ∈ oneMoreReboot, a.Spares rebootAgentDocument.functions.length)
      ∧ (rebootAgent.grow oneMoreReboot).build = .ok oneMoreRebootDocument
      ∧ oneMoreRebootDocument.functions.take 1 = rebootAgentDocument.functions := by
  have hspare : ∀ a ∈ oneMoreReboot, a.Spares rebootAgentDocument.functions.length := by
    simp [oneMoreReboot, rebootAgentDocument, Addition.Spares]
  exact ⟨rebootAgent_reachable, rebootAgent_build, hspare, oneMoreReboot_build,
    (build_grow rebootAgent_build oneMoreReboot hspare oneMoreReboot_build).1⟩

end Scenario

end Testbed
