/-
What a JSON value is resolved to.

A value from outside becomes a token, in which its strings of the form `$name` are placeholders
and everything else stands for itself.  Resolving that token puts the values of constants in the
places of their names and does nothing else: keys, their order, the lengths of arrays and all
other leaves are those of the value.  A string `$name` that names an argument is written again
as it was.  What a constant puts in is not looked at again, so a dollar sign in it stays.

A value holds each key once.  So no two entries of a map of such a token fall together, and the
object that comes out has a member for each member that went in.
-/
import Testbed.Proofs.Json.Proper
import Testbed.Proofs.Missing
import Testbed.Proofs.Placeholder

namespace Testbed

open Outcome

/-- A value is another one in which every string `$name` with the name of a constant has given way
to the value of that constant, and nothing else has changed. -/
inductive Json.Substituted (d : Declarations) : Json → Json → Prop
  | constant {name : String} {value : Json} (form : IsIdentifier name)
      (declared : d.constant? name = some value) :
      Substituted d (.string (reference name)) value
  | text {s : String}
      (other : ∀ name, s = reference name → IsIdentifier name → d.constant? name = none) :
      Substituted d (.string s) (.string s)
  | null : Substituted d .null .null
  | boolean (b : Bool) : Substituted d (.boolean b) (.boolean b)
  | number (n : Number) : Substituted d (.number n) (.number n)
  | array {items items' : List Json} (each : List.Forall₂ (Substituted d) items items') :
      Substituted d (.array items) (.array items')
  | object {members members' : List (String × Json)}
      (keys : Keyed.keys members' = Keyed.keys members)
      (each : List.Forall₂ (Substituted d) (members.map Prod.snd) (members'.map Prod.snd)) :
      Substituted d (.object members) (.object members')

namespace Token

variable {d : Declarations}

/-- A string as a token resolves to a constant that it names, or to itself. -/
theorem substituted_of_resolve_parse {s : String} {w : Json}
    (h : (parse s).resolve d = .ok w) : Json.Substituted d (.string s) w := by
  rw [parse] at h
  cases hname : placeholderName? s with
  | none =>
      rw [hname] at h
      cases h
      refine .text fun name hs hid => ?_
      rw [placeholderName?_eq_some_iff.mpr ⟨hs, hid⟩] at hname
      cases hname
  | some name =>
      obtain ⟨rfl, hid⟩ := placeholderName?_eq_some_iff.mp hname
      rw [hname] at h
      simp only [resolve] at h
      cases hvalue : d.constant? name with
      | some value =>
          rw [hvalue] at h
          cases h
          exact .constant hid hvalue
      | none =>
          simp only [hvalue, resolveArgument] at h
          split at h
          · cases h
            refine .text fun other hother _ => ?_
            rwa [← reference_injective hother]
          · cases h

mutual

/-- **A value resolves to itself with constants put in for their names.** -/
theorem substituted_of_resolve : (v : Json) → ∀ {w : Json}, v.KeysOnce →
    (ofJson v).resolve d = .ok w → Json.Substituted d v w
  | .null => by
      intro _ h
      cases h
      exact .null
  | .boolean b => by
      intro _ h
      cases h
      exact .boolean b
  | .number n => by
      intro _ h
      cases h
      exact .number n
  | .string s => by
      intro _ h
      rw [ofJson] at h
      exact substituted_of_resolve_parse h
  | .array items => by
      intro hv h
      rw [ofJson, resolve] at h
      obtain ⟨ws, hws, h⟩ := bind_eq_ok.mp h
      cases pure_eq_ok.mp h
      exact .array (substituted_of_resolveItems items hv.items hws)
  | .object members => by
      intro hv h
      rw [ofJson, resolve] at h
      obtain ⟨ws, hws, h⟩ := bind_eq_ok.mp h
      cases pure_eq_ok.mp h
      obtain ⟨hkeys, heach⟩ := substituted_of_resolveEntries members (fun entry => hv.member) hws
      -- the keys are those of the value, and none of them comes twice
      rw [Keyed.ofList_of_nodup (hkeys ▸ hv.keys)]
      exact .object hkeys heach

theorem substituted_of_resolveItems : (items : List Json) → ∀ {ws : List Json},
    (∀ v ∈ items, v.KeysOnce) → resolveItems d (ofItems items) = .ok ws →
      List.Forall₂ (Json.Substituted d) items ws
  | [] => by
      intro _ h
      cases h
      exact .nil
  | v :: rest => by
      intro hkeys h
      rw [ofItems, resolveItems] at h
      obtain ⟨w, hw, h⟩ := bind_eq_ok.mp h
      obtain ⟨others, hothers, h⟩ := bind_eq_ok.mp h
      cases pure_eq_ok.mp h
      obtain ⟨hv, hrest⟩ := List.forall_mem_cons.mp hkeys
      exact .cons (substituted_of_resolve v hv hw) (substituted_of_resolveItems rest hrest hothers)

theorem substituted_of_resolveEntries : (members : List (String × Json)) → ∀ {ws : Members},
    (∀ entry ∈ members, entry.2.KeysOnce) → resolveEntries d (ofMembers members) = .ok ws →
      Keyed.keys ws = Keyed.keys members
        ∧ List.Forall₂ (Json.Substituted d) (members.map Prod.snd) (ws.map Prod.snd)
  | [] => by
      intro _ h
      cases h
      exact ⟨rfl, .nil⟩
  | (k, v) :: rest => by
      intro hkeys h
      rw [ofMembers, resolveEntries] at h
      obtain ⟨w, hw, h⟩ := bind_eq_ok.mp h
      obtain ⟨others, hothers, h⟩ := bind_eq_ok.mp h
      cases pure_eq_ok.mp h
      obtain ⟨hv, hrest⟩ := List.forall_mem_cons.mp hkeys
      obtain ⟨hsame, heach⟩ := substituted_of_resolveEntries rest hrest hothers
      exact ⟨congrArg (k :: ·) hsame, .cons (substituted_of_resolve v hv hw) heach⟩

end

/--
**A token resolves if all its references are declared, and fails for the first one that is not.**

References come in the order of `references`, and each is looked up in the table it is meant for.
The token of a JSON value resolves to that value with constants put in for their names.
-/
theorem resolve_references (d : Declarations) :
    (∀ t : Token, List.Forall₂ RefersTo t.leaves t.references
        ∧ (Succeeds (t.resolve d)
          ↔ ∀ leaf ∈ t.leaves, leaf.Resolvable d.arguments (Keyed.keys d.constants))
        ∧ ∀ name, t.resolve d = .error ⟨name⟩ ↔ d.FirstMissing t.leaves name)
      ∧ ∀ v w : Json, v.KeysOnce → (ofJson v).resolve d = .ok w → v.Substituted d w := by
  refine ⟨fun t => ?_, fun v w => substituted_of_resolve v⟩
  have hleaves := refersTo_leaves t
  have hfinds := finds_resolve d t
  exact ⟨hleaves, hfinds.succeeds_iff_resolvable hleaves, hfinds.error_iff_firstMissing hleaves⟩

/-- An argument, and a constant whose value has dollar signs of its own. -/
def agentAndRoute : Declarations :=
  .ofLists ["agent"] [("route", .array [.string "$agent", .string "$lost"])]

/-- A value with references, a key like one, and texts that only begin like one. -/
def journey : Json :=
  .object [("$route", .string "$route"), ("by", .array [.string "$agent", .string "$5"]),
    ("cost", .string "5 $route"), ("left", .null)]

/-- The key and the two texts stay, and what the constant puts in is left as it is. -/
def journeyResolved : Json :=
  .object [("$route", .array [.string "$agent", .string "$lost"]),
    ("by", .array [.string "$agent", .string "$5"]), ("cost", .string "5 $route"),
    ("left", .null)]

theorem journey_substituted :
    journey.KeysOnce ∧ (ofJson journey).resolve agentAndRoute = .ok journeyResolved
      ∧ journey.Substituted agentAndRoute journeyResolved := by
  have hkeys : journey.KeysOnce := by
    have hcollapse : journey.collapse = journey := rfl
    exact hcollapse ▸ Json.keysOnce_collapse journey
  have hresolve : (ofJson journey).resolve agentAndRoute = .ok journeyResolved := rfl
  exact ⟨hkeys, hresolve, (resolve_references agentAndRoute).2 journey _ hkeys hresolve⟩

end Token

end Testbed
