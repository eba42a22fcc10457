/-
Where the strings of a document come from.

The strings of a built action are, in order, what the origins of its payload list: words of
the wire form, names that the operation carries, strings of literals and of constants, and
references to arguments.  Every reference to an argument was written as one, and the
argument is declared.

The other direction fails.  A literal, a constant or a name may happen to be a dollar sign
and an identifier, and is copied as it is; the checks of a document take it for a reference
and report it unless something of this name is declared.  `build_strings` says exactly
which reports there are, and that there are none where no copied text has that form.
-/
import Testbed.Proofs.Origin
import Testbed.Proofs.Document.Wire
import Testbed.Proofs.Scenario.Buildable
import Testbed.Proofs.Validation

namespace Testbed

open Outcome

/-! ### Payloads -/

namespace Payload

variable {σ : Type}

/-- What the strings of an action are in which a document refers to names. -/
def origins (d : Declarations) : Payload σ → List Origin
  | startJob launch => launch.entity.origins d ++ (Token.map launch.arguments).origins d
  | startScenario launch => (Token.map launch.arguments).origins d
  | reboot entity => entity.origins d
  | branch condition => condition.origins d
  | loop condition => condition.origins d
  | stopJob _ | stopJobs _ | stopScenario _ => []

/-- The name of a scenario that is launched by name. -/
def nameOrigins : Payload σ → List Origin
  | startScenario ⟨.named name, _⟩ => [.label name]
  | _ => []

/-- A reference in a payload is made by one of its tokens. -/
theorem argument_mem {d : Declarations} {p : Payload σ} {name : String}
    (h : .argument name ∈ p.origins d) : ∃ t ∈ p.tokens, .argument name ∈ t.origins d := by
  have hentries : ∀ {entries : NamedTokens}, .argument name ∈ (Token.map entries).origins d →
      ∃ t ∈ entries.map Prod.snd, .argument name ∈ t.origins d := by
    intro entries h
    rw [Token.origins] at h
    obtain ⟨entry, hentry, hmem⟩ := Token.mem_originsOfEntries h
    exact ⟨entry.2, List.mem_map_of_mem hentry, hmem⟩
  cases p with
  | startJob launch =>
      rcases List.mem_append.mp h with h | h
      · exact ⟨launch.entity, List.mem_append_right _ (List.mem_singleton_self _), h⟩
      · obtain ⟨t, ht, hmem⟩ := hentries h
        exact ⟨t, List.mem_append_left _ ht, hmem⟩
  | startScenario launch => exact hentries h
  | reboot entity => exact ⟨entity, List.mem_singleton_self _, h⟩
  | branch condition => exact condition.argument_mem h
  | loop condition => exact condition.argument_mem h
  | stopJob _ => cases h
  | stopJobs _ => cases h
  | stopScenario _ => cases h

end Payload

/-- The name of the scenario that an action launches by name. -/
def Document.Action.launchedName : Document.Action → List String
  | .startScenario (.string name) _ => [name]
  | _ => []

/-- All strings of a function's action, apart from those of a document that is sent along. -/
def Document.Function.strings (f : Document.Function) : List String :=
  f.action.launchedName ++ f.texts

/-! ### Actions -/

namespace Json

theorem strings_ofNats (ns : List Nat) : (Json.ofNats ns).strings = [] := by
  rw [ofNats, strings]
  induction ns with
  | nil => rfl
  | cons n rest ih =>
      rw [List.map_cons, stringsOfItems, ih]
      rfl

theorem stringsOfMembers_append (members others : Members) :
    stringsOfMembers (members ++ others)
      = stringsOfMembers members ++ stringsOfMembers others := by
  simp only [stringsOfMembers_eq, List.map_append, List.flatMap_append]

end Json

namespace Scenario

theorem strings_of_resolveNamed {d : Declarations} {position : Nat} {entries : NamedTokens}
    {members : Members} (h : resolveNamed d position entries = .ok members) :
    Json.stringsOfMembers members = ((Token.map entries).origins d).map Origin.text := by
  rw [← Token.strings_of_resolve _ (resolveNamed_eq_ok.mp h), Json.strings]

/-- A job that is built has one entry, which is named after the job. -/
theorem buildJob_eq_ok {d : Declarations} {position : Nat} {launch : JobLaunch}
    {job : Document.Job} (h : buildJob d position launch = .ok job) :
    launch.job ∉ Document.jobKeys ∧ ∃ entity arguments,
      launch.entity.resolve d = .ok entity
        ∧ resolveNamed d position launch.arguments = .ok arguments
        ∧ job = ⟨entity, launch.offset.seconds, launch.interval.map Duration.seconds,
          [(launch.job, .object arguments)]⟩ := by
  unfold buildJob at h
  split at h
  · cases h
  · rename_i hname
    obtain ⟨arguments, harguments, h⟩ := bind_eq_ok.mp h
    obtain ⟨entity, hentity, h⟩ := bind_eq_ok.mp h
    exact ⟨by simpa using hname, entity, arguments, resolveToken_eq_ok.mp hentity, harguments,
      (pure_eq_ok.mp h).symm⟩

theorem buildJob_apart {d : Declarations} {position : Nat} {launch : JobLaunch}
    {job : Document.Job} (h : buildJob d position launch = .ok job) : job.Apart := by
  obtain ⟨hname, entity, arguments, -, -, rfl⟩ := buildJob_eq_ok h
  refine ⟨List.nodup_singleton _, fun key hkey => ?_⟩
  rw [List.mem_singleton.mp hkey]
  exact hname

theorem strings_fixedMembers (j : Document.Job) :
    Json.stringsOfMembers j.fixedMembers = j.entity.strings := by
  unfold Document.Job.fixedMembers
  cases j.interval <;> simp [Json.stringsOfMembers, Json.strings]

theorem strings_of_buildJob {d : Declarations} {position : Nat} {launch : JobLaunch}
    {job : Document.Job} (h : buildJob d position launch = .ok job) :
    Json.stringsOfMembers job.toMembers
      = ((Payload.startJob (σ := Scenario) launch).origins d).map Origin.text := by
  have hmembers := (buildJob_apart h).toMembers_eq
  obtain ⟨-, entity, arguments, hentity, harguments, rfl⟩ := buildJob_eq_ok h
  rw [hmembers, Json.stringsOfMembers_append, strings_fixedMembers]
  simp [Json.stringsOfMembers, Json.strings, Payload.origins, strings_of_resolveNamed harguments,
    Token.strings_of_resolve _ hentity]

/-- The strings in which a function refers to names, when they are those of its action. -/
theorem texts_of_toJson {f : Document.Function} {action : Document.Action}
    (hf : f.action = action) (hkind : action.kind ≠ .startScenario) :
    f.texts = Json.stringsOfMembers [action.toMember] := by
  unfold Document.Function.texts
  rw [hf]
  cases action with
  | startScenario scenario arguments => exact absurd rfl hkind
  | _ => rfl

/-- **The strings of an action are those that the origins of its payload list.** -/
theorem Enacts.texts {s : Scenario} {d : Declarations} {position : Nat} {op : Operation Scenario}
    {built : Option Built} {p : Payload Scenario} {action : Document.Action}
    (h : s.Enacts d position op built p action) {f : Document.Function} (hf : f.action = action) :
    f.texts = (p.origins d).map Origin.text := by
  cases h with
  | startJob hjob =>
      rw [texts_of_toJson hf (by simp [Document.Action.kind]), ← strings_of_buildJob hjob]
      simp [Document.Action.toMember, Document.Action.payload, Json.stringsOfMembers, Json.strings]
  | stopJob hfound | stopScenario hfound =>
      rw [texts_of_toJson hf (by simp [Document.Action.kind])]
      rfl
  | stopJobs hfound =>
      rw [texts_of_toJson hf (by simp [Document.Action.kind])]
      simp [Document.Action.toMember, Document.Action.payload, Json.stringsOfMembers, Json.strings,
        Json.strings_ofNats, Payload.origins]
  | startScenario hscenario harguments =>
      unfold Document.Function.texts
      rw [hf]
      exact strings_of_resolveNamed harguments
  | reboot hentity =>
      have hstrings := Token.strings_of_resolve _ (resolveToken_eq_ok.mp hentity)
      rw [texts_of_toJson hf (by simp [Document.Action.kind])]
      simp [Document.Action.toMember, Document.Action.payload, Json.stringsOfMembers, Json.strings,
        Payload.origins, hstrings]
  | branch hcondition hfirst hsecond | loop hcondition hfirst hsecond =>
      have hstrings := Condition.strings_of_build _ (buildCondition_eq_ok.mp hcondition)
      rw [texts_of_toJson hf (by simp [Document.Action.kind])]
      simp [Document.Action.toMember, Document.Action.payload, Json.stringsOfMembers, Json.strings,
        Json.strings_ofNats, Payload.origins, hstrings]

/-- A scenario that is launched by its name is sent as this name, and one that is embedded as the
document that it builds to. -/
theorem buildSubScenario_eq_ok {position : Nat} {op : Operation Scenario}
    {launch : ScenarioLaunch Scenario} (hp : op.payload = some (.startScenario launch))
    {value : Json}
    (h : buildSubScenario position launch.scenario.name (embeddedBuild op) = .ok value) :
    (∃ name, launch.scenario = .named name ∧ value = .string name)
      ∨ ∃ sub e, launch.scenario = .embedded sub ∧ op.embedded? = some sub ∧ sub.build = .ok e
        ∧ value = e.toJson := by
  obtain ⟨target, entries⟩ := launch
  unfold embeddedBuild Operation.embedded? at h
  unfold Operation.embedded?
  rw [hp] at h ⊢
  cases target with
  | named name =>
      cases h
      exact .inl ⟨name, rfl, rfl⟩
  | embedded sub =>
      have hbuilt : buildSubScenario position sub.name (some sub.build) = .ok value := h
      cases hsub : sub.build with
      | error source =>
          rw [hsub] at hbuilt
          cases hbuilt
      | ok d =>
          rw [hsub] at hbuilt
          cases hbuilt
          exact .inr ⟨sub, d, rfl, rfl, hsub, rfl⟩

/-- The name of the scenario that is launched is the name that the payload holds. -/
theorem Enacts.launchedName {s : Scenario} {d : Declarations} {position : Nat}
    {op : Operation Scenario} {p : Payload Scenario} {action : Document.Action}
    (h : s.Enacts d position op (embeddedBuild op) p action) (hp : op.payload = some p) :
    action.launchedName = p.nameOrigins.map Origin.text := by
  cases h with
  | @startScenario launch _ _ hscenario harguments =>
      obtain ⟨target, entries⟩ := launch
      rcases buildSubScenario_eq_ok hp hscenario with ⟨name, rfl, rfl⟩ | ⟨sub, e, rfl, -, -, rfl⟩
      · rfl
      · rfl
  | _ => rfl

/-- An operation gets its action only if its tokens resolve. -/
theorem Enacts.resolves {s : Scenario} {position : Nat} {op : Operation Scenario}
    {built : Option Built} {p : Payload Scenario} {action : Document.Action}
    (h : s.Enacts s.declarations position op built p action) : ∀ t ∈ p.tokens, s.Resolves t := by
  cases h with
  | startJob hjob =>
      obtain ⟨-, harguments, hentity⟩ := (succeeds_buildJob s position _).mp ⟨_, hjob⟩
      intro t ht
      rcases List.mem_append.mp ht with ht | ht
      · exact harguments t ht
      · exact List.mem_singleton.mp ht ▸ hentity
  | startScenario hscenario harguments =>
      exact (succeeds_resolveNamed s position _).mp ⟨_, harguments⟩
  | reboot hentity =>
      intro t ht
      rw [List.mem_singleton.mp ht]
      exact (succeeds_resolveToken s position _).mp ⟨_, hentity⟩
  | branch hcondition | loop hcondition =>
      exact (succeeds_buildCondition s position _).mp ⟨_, hcondition⟩
  | stopJob hfound | stopJobs hfound | stopScenario hfound =>
      intro t ht
      cases ht

/-! ### Documents -/

/-- What the strings of a function are, for the operation that it was built from. -/
structure StringsOf (s : Scenario) (d : Document) (op : Operation Scenario)
    (f : Document.Function) (p : Payload Scenario) : Prop where
  payload : op.payload = some p
  strings : f.strings = (p.nameOrigins ++ p.origins s.declarations).map Origin.text
  texts : f.texts = (p.origins s.declarations).map Origin.text
  /-- A reference to an argument is made by a token of the operation, and is declared. -/
  argument : ∀ name, .argument name ∈ p.origins s.declarations →
    (∃ t ∈ p.tokens, .argument name ∈ t.origins s.declarations)
      ∧ name ∈ Keyed.keys d.arguments

theorem mem_keys_argumentTable (s : Scenario) (name : String) :
    name ∈ Keyed.keys s.argumentTable ↔ name ∈ s.arguments.map Prod.fst := by
  rw [argumentTable, Keyed.mem_keys_ofList, Keyed.keys, List.map_map]
  rfl

/-- There is a function for each operation, whose strings are those of the payload. -/
theorem stringsOf_build {s : Scenario} {d : Document} (hd : s.build = .ok d) :
    d.functions.length = s.operations.length ∧ ∀ i op, s.operations[i]? = some op →
      ∃ f p, d.functions[i]? = some f ∧ f.id = i ∧ s.StringsOf d op f p := by
  obtain ⟨-, -, -, _, -, rfl⟩ := build_eq_ok.mp hd
  obtain ⟨hlength, hall⟩ := functions_of_build hd
  refine ⟨hlength, fun i op hop => ?_⟩
  obtain ⟨p, action, hp, henacts, hf⟩ := hall i op hop
  have htexts := henacts.texts (f := ⟨i, labelOf op i, action, op.wait.built⟩) rfl
  refine ⟨_, p, hf, rfl, hp, ?_, htexts, fun name hname => ?_⟩
  · rw [Document.Function.strings, htexts, henacts.launchedName hp, List.map_append]
  · obtain ⟨t, ht, hmem⟩ := p.argument_mem hname
    refine ⟨⟨t, ht, hmem⟩, (s.mem_keys_argumentTable name).mpr ?_⟩
    exact ((s.resolvable_declarations_iff t).mpr (henacts.resolves t ht)).argument_mem hmem

/-- No text that operations copy into a document has the form of a reference. -/
def Unambiguous (s : Scenario) : Prop :=
  ∀ op ∈ s.operations, ∀ p, op.payload = some p →
    ∀ o ∈ p.nameOrigins ++ p.origins s.declarations, ∀ name, o.text = reference name →
      IsIdentifier name → o = .argument name

/-- A name is reported as undeclared where a text of this form was copied, and nowhere else. -/
theorem undeclaredToken_build {s : Scenario} {d : Document} (hd : s.build = .ok d) (i : Nat)
    (name : String) : .undeclaredToken i name ∈ d.validate.errors
      ↔ (IsIdentifier name ∧ name ∉ Keyed.keys d.arguments ∧ name ∉ Keyed.keys d.constants)
        ∧ ∃ op p, s.operations[i]? = some op ∧ op.payload = some p
          ∧ ∃ o ∈ p.origins s.declarations, o.text = reference name := by
  obtain ⟨hlength, hall⟩ := stringsOf_build hd
  rw [Document.undeclaredToken_mem_iff]
  refine ⟨?_, ?_⟩
  · intro h
    obtain ⟨f, hf, rfl, ⟨hmem, hname⟩, hundeclared⟩ := h
    obtain ⟨i, hi⟩ := List.mem_iff_getElem?.mp hf
    have hlt : i < s.operations.length := hlength ▸ (List.getElem?_eq_some_iff.mp hi).1
    have hop := List.getElem?_eq_getElem hlt
    obtain ⟨f', p, hf', hid, hstrings⟩ := hall i _ hop
    rw [hi] at hf'
    cases hf'
    rw [hstrings.texts] at hmem
    refine ⟨⟨hname, not_or.mp hundeclared⟩, _, p, ?_, hstrings.payload, List.mem_map.mp hmem⟩
    rw [hid]
    exact hop
  · intro h
    obtain ⟨⟨hname, hundeclared⟩, op, p, hop, hp, horigin⟩ := h
    obtain ⟨f, p', hf, hid, hstrings⟩ := hall i op hop
    cases hp.symm.trans hstrings.payload
    refine ⟨f, List.mem_of_getElem? hf, hid, ⟨?_, hname⟩, not_or.mpr hundeclared⟩
    rw [hstrings.texts]
    exact List.mem_map.mpr horigin

/-- Without copied texts of that form, a reference in a function is one of its operation. -/
theorem Unambiguous.argument_mem {s : Scenario} (hs : s.Unambiguous) {d : Document}
    {op : Operation Scenario} (hop : op ∈ s.operations) {f : Document.Function}
    {p : Payload Scenario} (h : s.StringsOf d op f p) {name : String} (hname : IsIdentifier name)
    (hmem : reference name ∈ f.strings) : .argument name ∈ p.origins s.declarations := by
  rw [h.strings] at hmem
  obtain ⟨o, ho, htext⟩ := List.mem_map.mp hmem
  obtain rfl := hs op hop p h.payload o ho name htext hname
  rcases List.mem_append.mp ho with ho | ho
  -- a name that a scenario is launched by is no reference
  · exfalso
    unfold Payload.nameOrigins at ho
    split at ho
    · cases List.mem_singleton.mp ho
    · cases ho
  · exact ho

/--
**The strings of a built action are what its payload lists, and only references look like ones
unless a text is copied that does.**

Every function has the strings that the origins of the payload of its operation list, in order.
A reference to an argument among them was made by a token of that operation, and the argument
is declared.  The checks report a name as undeclared exactly where it is written like a reference
without being declared, whatever the text is.  Where no copied text has the form of a reference,
every string of that form is a reference to a declared argument, and nothing is reported.
-/
theorem build_strings {s : Scenario} {d : Document} (hd : s.build = .ok d) :
    (d.functions.length = s.operations.length ∧ ∀ i op, s.operations[i]? = some op →
        ∃ f p, d.functions[i]? = some f ∧ f.id = i ∧ s.StringsOf d op f p)
      ∧ (∀ i name, .undeclaredToken i name ∈ d.validate.errors
        ↔ (IsIdentifier name ∧ name ∉ Keyed.keys d.arguments ∧ name ∉ Keyed.keys d.constants)
          ∧ ∃ op p, s.operations[i]? = some op ∧ op.payload = some p
            ∧ ∃ o ∈ p.origins s.declarations, o.text = reference name)
      ∧ (s.Unambiguous →
        (∀ op ∈ s.operations, ∀ f p, s.StringsOf d op f p → ∀ name, IsIdentifier name →
          reference name ∈ f.strings →
            .argument name ∈ p.origins s.declarations ∧ name ∈ Keyed.keys d.arguments)
        ∧ ∀ i name, .undeclaredToken i name ∉ d.validate.errors) := by
  refine ⟨stringsOf_build hd, undeclaredToken_build hd, fun hs => ⟨?_, ?_⟩⟩
  · intro op hop f p hstrings name hname hmem
    have hargument := hs.argument_mem hop hstrings hname hmem
    exact ⟨hargument, (hstrings.argument name hargument).2⟩
  · intro i name h
    obtain ⟨⟨hname, hundeclared, -⟩, op, p, hop, hp, o, ho, htext⟩ :=
      (undeclaredToken_build hd i name).mp h
    obtain ⟨f, p', -, -, hstrings⟩ := (stringsOf_build hd).2 i op hop
    cases hp.symm.trans hstrings.payload
    have horigin : o ∈ p.nameOrigins ++ p.origins s.declarations := List.mem_append_right _ ho
    obtain rfl := hs op (List.mem_of_getElem? hop) p hp o horigin name htext hname
    exact hundeclared (hstrings.argument name ho).2

theorem rebootAgent_unambiguous : rebootAgent.Unambiguous := by
  intro op hop p hp o ho name htext _
  cases List.mem_singleton.mp hop
  cases hp
  have horigins : o = .argument "agent" := List.mem_singleton.mp ho
  subst horigins
  have hname : "agent" = name := reference_injective htext
  rw [hname]

/-- The argument is referred to, and nothing is reported. -/
theorem rebootAgent_strings :
    rebootAgent.build = .ok rebootAgentDocument
      ∧ (∃ f p, rebootAgentDocument.functions[0]? = some f ∧ f.id = 0
        ∧ rebootAgent.StringsOf rebootAgentDocument
          ⟨.reboot, none, some (.reboot (.placeholder "agent")), .immediate, [], []⟩ f p)
      ∧ ∀ i name, .undeclaredToken i name ∉ rebootAgentDocument.validate.errors := by
  obtain ⟨⟨-, hall⟩, -, hnone⟩ := build_strings rebootAgent_build
  exact ⟨rebootAgent_build, hall 0 _ rfl, (hnone rebootAgent_unambiguous).2⟩

/-- A reboot of an entity whose name begins with a dollar sign. -/
def rebootLiteral : Scenario :=
  ⟨1, [], "Reboot", "", [], [],
    [⟨.reboot, none, some (.reboot (.literal (.string "$rate"))), .immediate, [], []⟩]⟩

theorem rebootLiteral_reachable : rebootLiteral.Reachable :=
  rebootOf_reachable [] (.literal (.string "$rate"))

/-- A literal is copied as it is, no token refers to anything, and a reference is reported all the
same. -/
theorem rebootLiteral_undeclared : rebootLiteral.Reachable ∧ ∃ d f,
    rebootLiteral.build = .ok d ∧ d.functions[0]? = some f ∧ reference "rate" ∈ f.strings
      ∧ (∀ op ∈ rebootLiteral.operations, ∀ p, op.payload = some p → ∀ t ∈ p.tokens, ∀ name,
        .argument name ∉ t.origins rebootLiteral.declarations)
      ∧ "rate" ∉ Keyed.keys d.arguments
      ∧ .undeclaredToken 0 "rate" ∈ d.validate.errors := by
  have hbuild : rebootLiteral.build = .ok ⟨"Reboot", "", [], [],
      [⟨0, "#0", .reboot (.string "$rate"), .immediate⟩]⟩ := by cbv
  refine ⟨rebootLiteral_reachable, _, _, hbuild, rfl, List.mem_singleton_self _, ?_,
    by simp [Keyed.keys], ?_⟩
  · intro op hop p hp t ht name
    cases List.mem_singleton.mp hop
    cases hp
    rw [List.mem_singleton.mp ht]
    simp [Token.origins]
  · have hrefers : placeholderName? (reference "rate") = some "rate" := rfl
    have hname : IsIdentifier "rate" := (placeholderName?_eq_some_iff.mp hrefers).2
    refine (undeclaredToken_build hbuild 0 "rate").mpr
      ⟨⟨hname, by simp [Keyed.keys], by simp [Keyed.keys]⟩, ?_⟩
    exact ⟨_, _, rfl, rfl, .literal "$rate", List.mem_singleton_self _, rfl⟩

end Scenario

end Testbed
