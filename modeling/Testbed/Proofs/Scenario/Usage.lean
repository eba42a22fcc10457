/-
Arguments that are used are not reported as unused.

A scenario refers to an argument in a token; its document refers to it in a string of the form
`$name`.  A token is rendered with all that is in it, with one exception: a map may hold a key
several times, and its object keeps the last entry only.  `Token.Keeps` is a reference that is
not lost in this way, at any depth.  Such a reference to an identifier ends up as a string of
the function's action, and the scan of the document finds it there.

Where no map repeats a key, every reference is kept.
-/
import Testbed.Proofs.Scenario.Origins

namespace Testbed

/-! ### References that are kept -/

/-- A token has a reference to a name that is still there when repeated keys have collapsed. -/
inductive Token.Keeps (name : String) : Token → Prop
  | placeholder : Keeps name (.placeholder name)
  | constant : Keeps name (.constant name)
  | argument : Keeps name (.argument name)
  | list {items : List Token} {t : Token} (mem : t ∈ items) (keeps : Keeps name t) :
      Keeps name (.list items)
  | map {entries : List (String × Token)} {entry : String × Token}
      (last : entry ∈ Keyed.ofList entries) (keeps : Keeps name entry.2) :
      Keeps name (.map entries)

/-- No map in a token has a key twice. -/
inductive Token.KeysOnce : Token → Prop
  | literal (value : Json) : KeysOnce (.literal value)
  | placeholder (name : String) : KeysOnce (.placeholder name)
  | constant (name : String) : KeysOnce (.constant name)
  | argument (name : String) : KeysOnce (.argument name)
  | list {items : List Token} (each : ∀ t ∈ items, KeysOnce t) : KeysOnce (.list items)
  | map {entries : List (String × Token)} (once : (Keyed.keys entries).Nodup)
      (each : ∀ entry ∈ entries, KeysOnce entry.2) : KeysOnce (.map entries)

namespace Token

theorem referencesOfItems_eq (items : List Token) :
    referencesOfItems items = items.flatMap references := by
  induction items with
  | nil => rfl
  | cons t rest ih => rw [referencesOfItems, ih, List.flatMap_cons]

theorem referencesOfEntries_eq (entries : List (String × Token)) :
    referencesOfEntries entries = entries.flatMap fun entry => references entry.2 := by
  induction entries with
  | nil => rfl
  | cons entry rest ih => rw [referencesOfEntries, ih, List.flatMap_cons]

/-- What is kept is one of the references of the token. -/
theorem Keeps.mem_references {name : String} {t : Token} (h : t.Keeps name) :
    name ∈ t.references := by
  induction h with
  | placeholder => exact List.mem_singleton_self _
  | constant => exact List.mem_singleton_self _
  | argument => exact List.mem_singleton_self _
  | list mem _ ih =>
      rw [references, referencesOfItems_eq]
      exact List.mem_flatMap_of_mem mem ih
  | map last _ ih =>
      rw [references, referencesOfEntries_eq]
      exact List.mem_flatMap_of_mem (Keyed.mem_of_mem_ofList last) ih

/-- Where no key is repeated nothing is lost. -/
theorem KeysOnce.keeps {t : Token} (h : t.KeysOnce) {name : String}
    (hname : name ∈ t.references) : t.Keeps name := by
  induction h with
  | literal value => exact absurd hname List.not_mem_nil
  | placeholder found => exact List.mem_singleton.mp hname ▸ .placeholder
  | constant found => exact List.mem_singleton.mp hname ▸ .constant
  | argument found => exact List.mem_singleton.mp hname ▸ .argument
  | list _ ih =>
      rw [references, referencesOfItems_eq] at hname
      obtain ⟨t, ht, hmem⟩ := List.mem_flatMap.mp hname
      exact .list ht (ih t ht hmem)
  | map once _ ih =>
      rw [references, referencesOfEntries_eq] at hname
      obtain ⟨entry, hentry, hmem⟩ := List.mem_flatMap.mp hname
      exact .map ((Keyed.ofList_of_nodup once).symm ▸ hentry) (ih entry hentry hmem)

/-- Where no key is repeated the references of a token are those that it keeps. -/
theorem KeysOnce.keeps_iff {t : Token} (h : t.KeysOnce) {name : String} :
    t.Keeps name ↔ name ∈ t.references := ⟨Keeps.mem_references, h.keeps⟩

/-- A kept reference of a token that resolves, to a name that is no constant, is written out. -/
theorem Keeps.argument_mem {d : Declarations} {name : String} {t : Token} (h : t.Keeps name)
    (hresolves : t.Resolvable d.arguments (Keyed.keys d.constants))
    (hname : name ∉ Keyed.keys d.constants) : .argument name ∈ t.origins d := by
  induction h with
  | placeholder =>
      rw [origins, Declarations.constant?, Keyed.get?_eq_none_iff.mpr hname]
      exact List.mem_singleton_self _
  | constant =>
      cases hresolves with
      | constant known => exact absurd known hname
  | argument =>
      rw [origins]
      exact List.mem_singleton_self _
  | list mem _ ih =>
      cases hresolves with
      | list each =>
          rw [origins, originsOfItems_eq]
          exact List.mem_flatMap_of_mem mem (ih (each _ mem))
  | map last _ ih =>
      cases hresolves with
      | map each =>
          rw [origins, originsOfEntries_eq, Keyed.ofList_map, List.flatMap_map]
          exact List.mem_flatMap_of_mem last (ih (each _ (Keyed.mem_of_mem_ofList last)))

end Token

/-! ### Conditions and payloads -/

theorem Operand.origins_subset (d : Declarations) (o : Operand) :
    o.token.origins d ⊆ o.origins d := by
  intro origin h
  cases o <;> simp_all [origins, token]

mutual

/-- What a token at a leaf is written as is part of what the condition is written as. -/
theorem Condition.origins_subset (d : Declarations) : (c : Condition) → ∀ t ∈ c.tokens,
    t.origins d ⊆ c.origins d
  | .binary operator left right => by
      intro t ht origin h
      rw [Condition.origins]
      rw [Condition.tokens] at ht
      refine List.mem_cons_of_mem _ (List.mem_append.mpr ?_)
      rcases List.mem_append.mp ht with ht | ht
      · exact Or.inl (Expression.origins_subset d left t ht h)
      · exact Or.inr (Expression.origins_subset d right t ht h)
  | .negation child => by
      intro t ht origin h
      rw [Condition.origins]
      rw [Condition.tokens] at ht
      exact List.mem_cons_of_mem _ (Expression.origins_subset d child t ht h)

theorem Expression.origins_subset (d : Declarations) : (e : Expression) → ∀ t ∈ e.tokens,
    t.origins d ⊆ e.origins d
  | .operand o => by
      intro t ht
      rw [Expression.tokens] at ht
      rw [Expression.origins, List.mem_singleton.mp ht]
      exact o.origins_subset d
  | .condition c => by
      intro t ht
      rw [Expression.tokens] at ht
      rw [Expression.origins]
      exact Condition.origins_subset d c t ht

end

namespace Payload

variable {σ : Type}

/-- The values that a payload is rendered with: its tokens, the named ones as a map. -/
def values : Payload σ → List Token
  | startJob launch => [launch.entity, .map launch.arguments]
  | startScenario launch => [.map launch.arguments]
  | reboot entity => [entity]
  | branch condition => condition.tokens
  | loop condition => condition.tokens
  | stopJob _ | stopJobs _ | stopScenario _ => []

/-- A payload refers to a name, and the reference is not overwritten. -/
def Keeps (name : String) (p : Payload σ) : Prop := ∃ t ∈ p.values, t.Keeps name

/-- No map in a payload has a key twice. -/
def KeysOnce (p : Payload σ) : Prop := ∀ t ∈ p.values, t.KeysOnce

theorem mem_references_map {name : String} {entries : NamedTokens} {t : Token}
    (ht : t ∈ entries.map Prod.snd) (hname : name ∈ t.references) :
    name ∈ (Token.map entries).references := by
  obtain ⟨entry, hentry, rfl⟩ := List.mem_map.mp ht
  rw [Token.references, Token.referencesOfEntries_eq]
  exact List.mem_flatMap_of_mem hentry hname

/-- What a token of a payload refers to, one of its values does. -/
theorem exists_mem_values {p : Payload σ} {name : String} {t : Token} (ht : t ∈ p.tokens)
    (hname : name ∈ t.references) : ∃ v ∈ p.values, name ∈ v.references := by
  cases p with
  | startJob launch =>
      rcases List.mem_append.mp ht with ht | ht
      · exact ⟨_, List.mem_cons_of_mem _ (List.mem_singleton_self _), mem_references_map ht hname⟩
      · exact ⟨_, List.mem_cons_self, List.mem_singleton.mp ht ▸ hname⟩
  | startScenario launch => exact ⟨_, List.mem_singleton_self _, mem_references_map ht hname⟩
  | reboot entity => exact ⟨t, ht, hname⟩
  | branch condition => exact ⟨t, ht, hname⟩
  | loop condition => exact ⟨t, ht, hname⟩
  | stopJob _ => cases ht
  | stopJobs _ => cases ht
  | stopScenario _ => cases ht

theorem KeysOnce.keeps {p : Payload σ} (h : p.KeysOnce) {name : String} {t : Token}
    (ht : t ∈ p.tokens) (hname : name ∈ t.references) : p.Keeps name := by
  obtain ⟨v, hv, hmem⟩ := exists_mem_values ht hname
  exact ⟨v, hv, (h v hv).keeps_iff.mpr hmem⟩

/-- The values of a payload resolve if its tokens do. -/
theorem resolvable_values {p : Payload σ} {arguments constants : List String}
    (h : ∀ t ∈ p.tokens, t.Resolvable arguments constants) :
    ∀ v ∈ p.values, v.Resolvable arguments constants := by
  have hmap : ∀ {entries : NamedTokens},
      (∀ t ∈ entries.map Prod.snd, t.Resolvable arguments constants) →
        (Token.map entries).Resolvable arguments constants :=
    fun hall => .map fun _ hentry => hall _ (List.mem_map_of_mem hentry)
  cases p with
  | startJob launch =>
      have htokens := List.forall_mem_append.mp h
      exact List.forall_mem_cons.mpr
        ⟨htokens.2 _ (List.mem_singleton_self _), List.forall_mem_singleton.mpr (hmap htokens.1)⟩
  | startScenario launch => exact List.forall_mem_singleton.mpr (hmap h)
  | reboot entity => exact h
  | branch condition => exact h
  | loop condition => exact h
  | stopJob _ => exact h
  | stopJobs _ => exact h
  | stopScenario _ => exact h

/-- What the values of a payload are written as is all in its action. -/
theorem origins_subset (d : Declarations) (p : Payload σ) :
    ∀ v ∈ p.values, v.origins d ⊆ p.origins d := by
  intro v hv
  cases p with
  | startJob launch =>
      rcases List.mem_cons.mp hv with rfl | hv
      · exact List.subset_append_left _ _
      · exact List.mem_singleton.mp hv ▸ List.subset_append_right _ _
  | startScenario launch => exact List.mem_singleton.mp hv ▸ List.Subset.refl _
  | reboot entity => exact List.mem_singleton.mp hv ▸ List.Subset.refl _
  | branch condition => exact Condition.origins_subset d condition v hv
  | loop condition => exact Condition.origins_subset d condition v hv
  | stopJob _ => cases hv
  | stopJobs _ => cases hv
  | stopScenario _ => cases hv

theorem Keeps.argument_mem {d : Declarations} {p : Payload σ} {name : String} (h : p.Keeps name)
    (hresolves : ∀ t ∈ p.tokens, t.Resolvable d.arguments (Keyed.keys d.constants))
    (hname : name ∉ Keyed.keys d.constants) : .argument name ∈ p.origins d := by
  obtain ⟨v, hv, hkeeps⟩ := h
  exact p.origins_subset d v hv (hkeeps.argument_mem (resolvable_values hresolves v hv) hname)

end Payload

/-! ### Documents -/

/-- An argument is reported as unused if no function refers to it. -/
theorem Document.unusedArgument_mem_iff {d : Document} {name : String} :
    .unusedArgument name ∈ d.validate.warnings
      ↔ name ∈ Keyed.keys d.arguments ∧ ∀ f ∈ d.functions, name ∉ f.names := by
  have hempty : .unusedArgument name ∉ d.emptyBodyWarnings := by
    unfold emptyBodyWarnings
    grind
  have hshared : .unusedArgument name ∉ d.sharedBodyWarnings := by
    unfold sharedBodyWarnings
    grind
  simp [validate, hempty, hshared, argumentWarnings]

namespace Scenario

/-- A kept reference to an argument is found in the function of the operation. -/
theorem mem_names_of_keeps {s : Scenario} {d : Document} (hd : s.build = .ok d) {name : String}
    (hname : IsIdentifier name) (hdeclared : name ∈ Keyed.keys d.arguments)
    {op : Operation Scenario} (hop : op ∈ s.operations) {p : Payload Scenario}
    (hp : op.payload = some p) (h : p.Keeps name) : ∃ f ∈ d.functions, name ∈ f.names := by
  obtain ⟨i, hi⟩ := List.mem_iff_getElem?.mp hop
  obtain ⟨q, action, hq, henacts, hf⟩ := (functions_of_build hd).2 i op hi
  obtain rfl : q = p := Option.some.inj (hq.symm.trans hp)
  obtain ⟨hnodup, -, -, _, -, rfl⟩ := build_eq_ok.mp hd
  -- an argument is no constant, so whatever refers to it is written as a reference
  have hconstant : name ∉ Keyed.keys s.declarations.constants := by
    intro hmem
    exact (List.nodup_append.mp hnodup).2.2 name ((s.mem_keys_argumentTable name).mp hdeclared)
      name ((Keyed.mem_keys_ofList s.constants name).mp hmem) rfl
  have hargument := h.argument_mem
    (fun t ht => (s.resolvable_declarations_iff t).mpr (henacts.resolves t ht)) hconstant
  refine ⟨_, List.mem_of_getElem? hf, Document.Function.mem_names_iff.mpr ⟨?_, hname⟩⟩
  rw [henacts.texts rfl]
  exact List.mem_map_of_mem hargument

/--
**An argument that a scenario uses is not reported as unused.**

This holds of every name that can be written as a reference, and of every token that refers to
it in a payload or a condition, whether it is pinned to the arguments or not and however deep it
is nested, unless a later entry under the same key takes its place.  In a payload in which no map
repeats a key it holds of all tokens.
-/
theorem unusedArgument_notMem {s : Scenario} {d : Document} (hd : s.build = .ok d)
    {name : String} (hname : IsIdentifier name) {op : Operation Scenario}
    (hop : op ∈ s.operations) {p : Payload Scenario} (hp : op.payload = some p) :
    (p.Keeps name → .unusedArgument name ∉ d.validate.warnings)
      ∧ (p.KeysOnce → (∃ t ∈ p.tokens, name ∈ t.references) →
        .unusedArgument name ∉ d.validate.warnings) := by
  have hkept : p.Keeps name → .unusedArgument name ∉ d.validate.warnings := by
    intro hkeeps hunused
    obtain ⟨hdeclared, hnever⟩ := Document.unusedArgument_mem_iff.mp hunused
    obtain ⟨f, hf, hmem⟩ := mem_names_of_keeps hd hname hdeclared hop hp hkeeps
    exact hnever f hf hmem
  refine ⟨hkept, fun honce hreferences => ?_⟩
  obtain ⟨t, ht, hmem⟩ := hreferences
  exact hkept (honce.keeps ht hmem)

/-- A reboot of an entity that is named twice, by the argument both times. -/
def rebootTwiceNamed : Token :=
  .map [("agent", .argument "agent"), ("port", .literal (.boolean true)),
    ("agent", .list [.placeholder "agent"])]

/-- The first reference is overwritten, the second one is kept. -/
theorem rebootTwiceNamed_used : ∃ d,
    (rebootOf [("agent", "What to reboot")] rebootTwiceNamed).build = .ok d
      ∧ "agent" ∈ Keyed.keys d.arguments ∧ ¬ rebootTwiceNamed.KeysOnce
      ∧ .unusedArgument "agent" ∉ d.validate.warnings := by
  have hrefers : placeholderName? (reference "agent") = some "agent" := rfl
  have hbuild : (rebootOf [("agent", "What to reboot")] rebootTwiceNamed).build
      = .ok ⟨"Reboot", "", [("agent", .string "What to reboot")], [], [⟨0, "#0",
        .reboot (.object [("agent", .array [.string "$agent"]), ("port", .boolean true)]),
        .immediate⟩]⟩ := by cbv
  have hlast : ("agent", Token.list [.placeholder "agent"]) ∈ Keyed.ofList
      [("agent", .argument "agent"), ("port", .literal (.boolean true)),
        ("agent", .list [.placeholder "agent"])] := List.mem_cons_self
  have hkeeps : rebootTwiceNamed.Keeps "agent" :=
    .map hlast (.list (List.mem_singleton_self _) .placeholder)
  refine ⟨_, hbuild, List.mem_singleton_self _, fun h => ?_, ?_⟩
  · cases h with
    | map once _ => exact absurd once (by decide)
  · exact (unusedArgument_notMem hbuild (placeholderName?_eq_some_iff.mp hrefers).2
      (List.mem_singleton_self _) rfl).1 ⟨_, List.mem_singleton_self _, hkeeps⟩

/-- An argument is reported as unused though a token refers to it. -/
def ReportsUsed (s : Scenario) (name : String) : Prop :=
  ∃ d, s.build = .ok d ∧ name ∈ s.arguments.map Prod.fst
    ∧ (∃ op ∈ s.operations, ∃ p, op.payload = some p ∧ ∃ t ∈ p.tokens, name ∈ t.references)
    ∧ .unusedArgument name ∈ d.validate.warnings

/-- A reference is lost where a later entry has the same key, and one to a name that is no
identifier is not recognized. -/
theorem rebootOf_reportsUsed :
    ((rebootOf [("agent", "")] (.map [("k", .argument "agent"), ("k", .literal .null)])).Reachable
      ∧ (rebootOf [("agent", "")]
        (.map [("k", .argument "agent"), ("k", .literal .null)])).ReportsUsed "agent")
    ∧ (rebootOf [("agent-1", "")] (.argument "agent-1")).Reachable
      ∧ (rebootOf [("agent-1", "")] (.argument "agent-1")).ReportsUsed "agent-1" := by
  refine ⟨⟨rebootOf_reachable _ _, ?_⟩, rebootOf_reachable _ _, ?_⟩
  · have hbuild : (rebootOf [("agent", "")]
        (.map [("k", .argument "agent"), ("k", .literal .null)])).build
        = .ok ⟨"Reboot", "", [("agent", .string "")], [],
          [⟨0, "#0", .reboot (.object [("k", .null)]), .immediate⟩]⟩ := by cbv
    refine ⟨_, hbuild, List.mem_singleton_self _, ⟨_, List.mem_singleton_self _, _, rfl, _,
      List.mem_singleton_self _, List.mem_cons_self⟩, ?_⟩
    exact Document.unusedArgument_mem_iff.mpr ⟨List.mem_singleton_self _, by decide⟩
  · have hbuild : (rebootOf [("agent-1", "")] (.argument "agent-1")).build
        = .ok ⟨"Reboot", "", [("agent-1", .string "")], [],
          [⟨0, "#0", .reboot (.string "$agent-1"), .immediate⟩]⟩ := by cbv
    refine ⟨_, hbuild, List.mem_singleton_self _, ⟨_, List.mem_singleton_self _, _, rfl, _,
      List.mem_singleton_self _, List.mem_singleton_self _⟩, ?_⟩
    exact Document.unusedArgument_mem_iff.mpr ⟨List.mem_singleton_self _, by decide⟩

end Scenario

end Testbed
