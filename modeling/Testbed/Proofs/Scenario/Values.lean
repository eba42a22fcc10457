/-
The values in a built document.

What stands in a document was put into the scenario, or into one that is embedded in it:
constants, literals, durations, and the positions of operations.  Building makes objects of
its own, for maps, jobs and conditions, and these have each key once.  So a document is
proper if everything that was put in is.
-/
import Testbed.Proofs.Document.Reading
import Testbed.Proofs.Origin
import Testbed.Proofs.Scenario.Origins

namespace Testbed

open Outcome
open Json (Proper)

variable {ok : Number → Prop}

/-! ### Tokens -/

namespace Token

/-- The literals in a token are proper. -/
inductive Proper (ok : Number → Prop) : Token → Prop
  | literal {value : Json} (proper : value.Proper ok) : Proper ok (.literal value)
  | placeholder (name : String) : Proper ok (.placeholder name)
  | constant (name : String) : Proper ok (.constant name)
  | argument (name : String) : Proper ok (.argument name)
  | list {items : List Token} (each : ∀ t ∈ items, Proper ok t) : Proper ok (.list items)
  | map {entries : List (String × Token)} (each : ∀ entry ∈ entries, Proper ok entry.2) :
      Proper ok (.map entries)

theorem exists_of_mem_resolveItems {d : Declarations} : ∀ {items : List Token} {vs : List Json},
    resolveItems d items = .ok vs → ∀ v ∈ vs, ∃ t ∈ items, t.resolve d = .ok v := by
  intro items
  induction items with
  | nil =>
      intro vs h v hv
      cases h
      cases hv
  | cons t rest ih =>
      intro vs h v hv
      rw [resolveItems] at h
      obtain ⟨first, hfirst, h⟩ := bind_eq_ok.mp h
      obtain ⟨others, hothers, h⟩ := bind_eq_ok.mp h
      cases pure_eq_ok.mp h
      rcases List.mem_cons.mp hv with rfl | hv
      · exact ⟨t, List.mem_cons_self, hfirst⟩
      · obtain ⟨t', ht', hv⟩ := ih hothers v hv
        exact ⟨t', List.mem_cons_of_mem _ ht', hv⟩

theorem exists_of_mem_resolveEntries {d : Declarations} {entries : List (String × Token)}
    {members : Members} (h : resolveEntries d entries = .ok members) :
    ∀ member ∈ members, ∃ entry ∈ entries, entry.2.resolve d = .ok member.2 := by
  intro member hmember
  have hmem := List.mem_map_of_mem (f := Prod.map id (Except.ok (ε := UnknownName))) hmember
  rw [← resolveEntries_eq_ok.mp h] at hmem
  obtain ⟨entry, hentry, heq⟩ := List.mem_map.mp hmem
  exact ⟨entry, hentry, congrArg Prod.snd heq⟩

variable {d : Declarations} (hconstants : ∀ entry ∈ d.constants, entry.2.Proper ok)

include hconstants

theorem proper_of_resolveConstant {name : String} {v : Json}
    (h : resolveConstant d name = .ok v) : v.Proper ok := by
  unfold resolveConstant Declarations.constant? at h
  split at h
  · rename_i value hvalue
    cases h
    exact hconstants _ (Keyed.mem_of_get?_eq_some hvalue)
  · cases h

/-- **A token whose literals are proper resolves to a proper value.** -/
theorem Proper.of_resolve {t : Token} (ht : t.Proper ok) {v : Json} (h : t.resolve d = .ok v) :
    v.Proper ok := by
  have hargument : ∀ {name v}, resolveArgument d name = .ok v → v.Proper ok := by
    intro name v h
    unfold resolveArgument at h
    split at h
    · cases h
      exact .string _
    · cases h
  induction ht generalizing v with
  | literal proper =>
      cases h
      exact proper
  | placeholder name =>
      rw [resolve] at h
      split at h
      · rename_i value hvalue
        have hconstant : resolveConstant d name = .ok v := by
          rw [resolveConstant, hvalue]
          exact h
        exact proper_of_resolveConstant hconstants hconstant
      · exact hargument h
  | constant name =>
      rw [resolve] at h
      exact proper_of_resolveConstant hconstants h
  | argument name =>
      rw [resolve] at h
      exact hargument h
  | list _ ih =>
      rw [resolve] at h
      obtain ⟨vs, hvs, h⟩ := bind_eq_ok.mp h
      cases pure_eq_ok.mp h
      refine .array fun v hv => ?_
      obtain ⟨t, ht, hv⟩ := exists_of_mem_resolveItems hvs v hv
      exact ih t ht hv
  | map _ ih =>
      rw [resolve] at h
      obtain ⟨vs, hvs, h⟩ := bind_eq_ok.mp h
      cases pure_eq_ok.mp h
      refine .ofList fun member hmember => ?_
      obtain ⟨entry, hentry, hmember⟩ := exists_of_mem_resolveEntries hvs member hmember
      exact ih entry hentry hmember

end Token

/-! ### Conditions -/

theorem Operand.proper_of_build {d : Declarations}
    (hconstants : ∀ entry ∈ d.constants, entry.2.Proper ok) {o : Operand}
    (ho : o.token.Proper ok) {v : Json} (h : o.build d = .ok v) : v.Proper ok := by
  have hstring : ∀ s, (Json.string s).Proper ok := .string
  cases o with
  | value token =>
      obtain ⟨value, hvalue, h⟩ := bind_eq_ok.mp h
      cases pure_eq_ok.mp h
      have hproper := ho.of_resolve hconstants hvalue
      exact Document.proper_record (by simp [Keyed.keys]) (by simp [hproper, hstring])
  | database name key property =>
      obtain ⟨value, hvalue, h⟩ := bind_eq_ok.mp h
      cases pure_eq_ok.mp h
      have hproper := ho.of_resolve hconstants hvalue
      exact Document.proper_record (by simp [Keyed.keys]) (by simp [hproper, hstring])
  | statistic measurement field =>
      obtain ⟨value, hvalue, h⟩ := bind_eq_ok.mp h
      cases pure_eq_ok.mp h
      have hproper := ho.of_resolve hconstants hvalue
      exact Document.proper_record (by simp [Keyed.keys]) (by simp [hproper, hstring])

mutual

/-- **A condition is built to a proper value if the tokens at its leaves are.** -/
theorem Condition.proper_of_build {d : Declarations}
    (hconstants : ∀ entry ∈ d.constants, entry.2.Proper ok) : (c : Condition) →
    (∀ t ∈ c.tokens, t.Proper ok) → ∀ {v : Json}, c.build d = .ok v → v.Proper ok
  | .binary operator left right => by
      intro htokens v h
      rw [Condition.tokens] at htokens
      rw [Condition.build] at h
      obtain ⟨l, hl, h⟩ := bind_eq_ok.mp h
      obtain ⟨r, hr, h⟩ := bind_eq_ok.mp h
      cases pure_eq_ok.mp h
      have htag : (Json.string operator.tag).Proper ok := .string _
      have hleft := Expression.proper_of_build hconstants left
        (fun t ht => htokens t (List.mem_append_left _ ht)) hl
      have hright := Expression.proper_of_build hconstants right
        (fun t ht => htokens t (List.mem_append_right _ ht)) hr
      exact Document.proper_record (by simp [Keyed.keys]) (by simp [htag, hleft, hright])
  | .negation child => by
      intro htokens v h
      rw [Condition.tokens] at htokens
      rw [Condition.build] at h
      obtain ⟨c, hc, h⟩ := bind_eq_ok.mp h
      cases pure_eq_ok.mp h
      have htag : (Json.string negationTag).Proper ok := .string _
      have hchild := Expression.proper_of_build hconstants child htokens hc
      exact Document.proper_record (by simp [Keyed.keys]) (by simp [htag, hchild])

theorem Expression.proper_of_build {d : Declarations}
    (hconstants : ∀ entry ∈ d.constants, entry.2.Proper ok) : (e : Expression) →
    (∀ t ∈ e.tokens, t.Proper ok) → ∀ {v : Json}, e.build d = .ok v → v.Proper ok
  | .operand o => by
      intro htokens v h
      rw [Expression.tokens] at htokens
      rw [Expression.build] at h
      exact Operand.proper_of_build hconstants (htokens _ (List.mem_singleton_self _)) h
  | .condition c => by
      intro htokens v h
      rw [Expression.tokens] at htokens
      rw [Expression.build] at h
      exact Condition.proper_of_build hconstants c htokens h

end

/-! ### Scenarios -/

namespace Scenario

/-- What was put into a scenario is proper, apart from what is embedded in it. -/
structure Holds (ok : Number → Prop) (s : Scenario) : Prop where
  constants : ∀ entry ∈ s.constants, entry.2.Proper ok
  tokens : ∀ op ∈ s.operations, ∀ p, op.payload = some p → ∀ t ∈ p.tokens, t.Proper ok
  delays : ∀ op ∈ s.operations, ok op.wait.delay.seconds
  offsets : ∀ op ∈ s.operations, ∀ launch, op.payload = some (.startJob launch) →
    ok launch.offset.seconds
  intervals : ∀ op ∈ s.operations, ∀ launch, op.payload = some (.startJob launch) →
    ∀ interval, launch.interval = some interval → ok interval.seconds
  positions : ∀ i, i < s.size → ok (.integer i)

theorem Holds.declarations {s : Scenario} (h : s.Holds ok) :
    ∀ entry ∈ s.declarations.constants, entry.2.Proper ok :=
  fun entry hentry => h.constants entry (Keyed.mem_of_mem_ofList hentry)

theorem proper_of_resolveNamed {d : Declarations}
    (hconstants : ∀ entry ∈ d.constants, entry.2.Proper ok) {position : Nat}
    {entries : NamedTokens} (htokens : ∀ t ∈ entries.map Prod.snd, t.Proper ok)
    {members : Members} (h : resolveNamed d position entries = .ok members) :
    (Json.object members).Proper ok := by
  have hproper : (Token.map entries).Proper ok :=
    .map fun _ hentry => htokens _ (List.mem_map_of_mem hentry)
  exact hproper.of_resolve hconstants (resolveNamed_eq_ok.mp h)

/-! ### Actions -/

theorem resolveTarget_lt {s : Scenario} {position : Nat} {kind : Kind} {target : Handle}
    {found : Nat} (h : s.resolveTarget position kind target = .ok found) : found < s.size := by
  have hindex := resolveTarget_index h
  obtain ⟨_, hposition, -⟩ := bind_eq_ok.mp h
  rw [← hindex]
  exact lt_size_of_owns (resolve_eq_ok.mp hposition).1

theorem resolveAll_lt {s : Scenario} {handles : List Handle} {positions : List Nat}
    (h : s.resolveAll handles = .ok positions) : ∀ position ∈ positions, position < s.size := by
  obtain ⟨howned, rfl⟩ := resolveAll_eq_ok.mp h
  intro position hposition
  obtain ⟨handle, hhandle, rfl⟩ := List.mem_map.mp hposition
  exact lt_size_of_owns (howned handle hhandle)

/-- All numbers of functions in an action are positions of operations. -/
theorem Enacts.ids_lt {s : Scenario} {d : Declarations} {position : Nat}
    {op : Operation Scenario} {built : Option Built} {p : Payload Scenario}
    {action : Document.Action} (h : s.Enacts d position op built p action) :
    ∀ id ∈ action.ids, id < s.size := by
  intro id hid
  cases h with
  | startJob hjob => cases hid
  | startScenario hscenario harguments => cases hid
  | reboot hentity => cases hid
  | stopJob hfound | stopScenario hfound =>
      cases List.mem_singleton.mp hid
      exact resolveTarget_lt hfound
  | stopJobs hfound =>
      rw [Document.Action.ids, List.mem_append] at hid
      have hid := hid.resolve_right List.not_mem_nil
      obtain ⟨target, -, htarget⟩ := exists_of_mem_mapM hfound id hid
      exact resolveTarget_lt htarget
  | @branch _ _ first second hcondition hfirst hsecond
  | @loop _ _ first second hcondition hfirst hsecond =>
      rcases List.mem_append.mp (show id ∈ first ++ second from hid) with hid | hid
      · exact resolveAll_lt hfirst id hid
      · exact resolveAll_lt hsecond id hid

/-- The values in an action are proper, if those that it is built from are. -/
theorem Enacts.proper {s : Scenario} {d : Declarations}
    (hconstants : ∀ entry ∈ d.constants, entry.2.Proper ok) {position : Nat}
    {op : Operation Scenario} {p : Payload Scenario} (hp : op.payload = some p)
    (htokens : ∀ t ∈ p.tokens, t.Proper ok)
    (hembedded : ∀ sub, op.embedded? = some sub → ∀ e, sub.build = .ok e → e.toJson.Proper ok)
    {action : Document.Action} (h : s.Enacts d position op (embeddedBuild op) p action) :
    ∀ v ∈ action.values, v.Proper ok := by
  intro v hv
  cases h with
  | @startJob launch job hjob =>
      obtain ⟨-, entity, arguments, hentity, harguments, rfl⟩ := buildJob_eq_ok hjob
      rcases List.mem_cons.mp hv with rfl | hv
      · refine (htokens launch.entity ?_).of_resolve hconstants hentity
        exact List.mem_append_right _ (List.mem_singleton_self _)
      · rw [List.mem_singleton.mp hv]
        refine proper_of_resolveNamed hconstants (fun t ht => ?_) harguments
        exact htokens t (List.mem_append_left _ ht)
  | startScenario hscenario harguments =>
      rcases List.mem_cons.mp hv with rfl | hv
      · rcases buildSubScenario_eq_ok hp hscenario with ⟨name, -, rfl⟩ | ⟨sub, e, -, hsub, he, rfl⟩
        · exact .string name
        · exact hembedded sub hsub e he
      · rw [List.mem_singleton.mp hv]
        exact proper_of_resolveNamed hconstants htokens harguments
  | reboot hentity =>
      rw [List.mem_singleton.mp hv]
      have hproper := htokens _ (List.mem_singleton_self _)
      exact hproper.of_resolve hconstants (resolveToken_eq_ok.mp hentity)
  | @branch condition _ _ _ hcondition | @loop condition _ _ _ hcondition =>
      rw [List.mem_singleton.mp hv]
      exact condition.proper_of_build hconstants htokens (buildCondition_eq_ok.mp hcondition)
  | stopJob hfound => cases hv
  | stopJobs hfound => cases hv
  | stopScenario hfound => cases hv

/-! ### Documents -/

/-- The entries of a job that was built stand apart from its fixed members. -/
theorem apart_of_build {s : Scenario} {d : Document} (hd : s.build = .ok d)
    {f : Document.Function} (hf : f ∈ d.functions) {job : Document.Job}
    (hjob : f.action = .startJob job) : job.Apart := by
  obtain ⟨i, hi⟩ := List.mem_iff_getElem?.mp hf
  obtain ⟨op, p, action, -, -, henacts, rfl⟩ := operation_of_build hd hi
  cases hjob
  cases henacts with
  | startJob hbuilt => exact buildJob_apart hbuilt

/-- What a scenario is built to is canonical, once what is embedded in it is. -/
theorem Holds.canonical {s : Scenario} (h : s.Holds ok)
    (hembedded : ∀ op ∈ s.operations, ∀ sub, op.embedded? = some sub → ∀ e, sub.build = .ok e →
      e.toJson.Proper ok) {d : Document} (hd : s.build = .ok d) : d.Canonical ok := by
  obtain ⟨-, hready, -, functions, -, rfl⟩ := build_eq_ok.mp hd
  refine ⟨Document.proper_toJson ?_ ?_ fun f hf => ?_, fun _ hf _ hjob => apart_of_build hd hf hjob⟩
  · refine .ofList fun entry hentry => ?_
    obtain ⟨argument, -, rfl⟩ := List.mem_map.mp hentry
    exact .string _
  · exact .ofList h.constants
  · obtain ⟨i, hi⟩ := List.mem_iff_getElem?.mp hf
    obtain ⟨op, p, action, hop, hp, henacts, rfl⟩ := operation_of_build hd hi
    have hmem := List.mem_of_getElem? hop
    have hlt : i < s.size := (List.getElem?_eq_some_iff.mp hop).1
    refine Document.Function.proper_toJson (h.positions i hlt) ?_ ?_
    · refine Document.Action.proper_payload ?_ ?_ fun id hid =>
        h.positions id (henacts.ids_lt id hid)
      · exact henacts.proper h.declarations hp (h.tokens op hmem p hp) (hembedded op hmem)
      · intro n hn
        cases henacts with
        | @startJob launch job hjob =>
            obtain ⟨-, _, _, -, -, rfl⟩ := buildJob_eq_ok hjob
            rcases List.mem_cons.mp hn with rfl | hn
            · exact h.offsets op hmem launch hp
            · have hn := Option.mem_toList.mp hn
              obtain ⟨interval, hinterval, rfl⟩ := Option.map_eq_some_iff.mp hn
              exact h.intervals op hmem launch hp interval hinterval
        | _ => cases hn
    · refine Document.Wait.proper_toJson (h.delays op hmem) fun id hid => ?_
      rw [Wait.references_built] at hid
      obtain ⟨handle, hhandle, rfl⟩ := List.mem_map.mp hid
      exact h.positions _ (lt_size_of_owns (hready i op hop handle hhandle).1)

/-- What was put into a scenario, and into all that are embedded in it, is proper. -/
def Proper (ok : Number → Prop) (s : Scenario) : Prop := ∀ t ∈ s.family, t.Holds ok

theorem Proper.embedded {s : Scenario} (h : s.Proper ok) {op : Operation Scenario}
    (hop : op ∈ s.operations) {sub : Scenario} (hsub : op.embedded? = some sub) : sub.Proper ok :=
  fun t ht => h t (mem_family_of_embedded hop hsub ht)

/-- **What a proper scenario is built to is canonical.** -/
theorem Proper.canonical {s : Scenario} (h : s.Proper ok) {d : Document} (hd : s.build = .ok d) :
    d.Canonical ok := by
  induction s using embeddedInduction generalizing d with
  | step s ih =>
      refine (h s (mem_family_self s)).canonical (fun op hop sub hsub e he => ?_) hd
      exact (ih op hop sub hsub (h.embedded hop hsub) he).proper

end Scenario

end Testbed
