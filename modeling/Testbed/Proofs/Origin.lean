/-
Where the strings of a resolved value come from.

Once a token is resolved, its value no longer tells a reference to an argument from a text
that only looks like one.  So the two are told apart before: `origins` lists, from left to
right, what every string of the value will be, and `strings_of_resolve` says that the list
is exact.  There are five ways for a string to get into a value, and only one of them makes
it a reference.

A map may have a key twice, of which the value keeps the last; the origins are collapsed in
the same way, before they are put in a row.
-/
import Testbed.Proofs.Placeholder
import Testbed.Proofs.Resolution

namespace Testbed

open Outcome

/-- What a string of a value is. -/
inductive Origin where
  /-- A reference to an argument. -/
  | argument (name : String)
  /-- A string of a literal. -/
  | literal (text : String)
  /-- A string of the value of a constant. -/
  | constant (name text : String)
  /-- A name that an operation carries, such as the field of a statistic. -/
  | label (text : String)
  /-- A word that is always written in this place. -/
  | keyword (text : String)

/-- How a string is written. -/
def Origin.text : Origin → String
  | argument name => reference name
  | literal text => text
  | constant _ text => text
  | label text => text
  | keyword text => text

/-- The value of a constant, string by string. -/
def Declarations.constantOrigins (d : Declarations) (name : String) : List Origin :=
  match d.constant? name with
  | some value => value.strings.map (.constant name)
  | none => []

namespace Token

mutual

/-- What the strings of a resolved token are, from left to right. -/
def origins (d : Declarations) : Token → List Origin
  | .literal value => value.strings.map .literal
  | .placeholder name =>
    match d.constant? name with
    | some _ => d.constantOrigins name
    | none => [.argument name]
  | .constant name => d.constantOrigins name
  | .argument name => [.argument name]
  | .list items => originsOfItems d items
  | .map entries => (Keyed.ofList (originsOfEntries d entries)).flatMap Prod.snd

/-- What the strings of several tokens are. -/
def originsOfItems (d : Declarations) : List Token → List Origin
  | [] => []
  | t :: rest => origins d t ++ originsOfItems d rest

/-- What the strings are under each key. -/
def originsOfEntries (d : Declarations) : List (String × Token) → List (String × List Origin)
  | [] => []
  | (k, t) :: rest => (k, origins d t) :: originsOfEntries d rest

end

end Token

/-! ### Strings of tables -/

namespace Json

theorem stringsOfMembers_eq (members : Members) :
    stringsOfMembers members = (members.map (Prod.map id strings)).flatMap Prod.snd := by
  induction members with
  | nil => rfl
  | cons entry rest ih =>
      obtain ⟨k, v⟩ := entry
      rw [stringsOfMembers, ih]
      rfl

/-- The strings of a table are known once they are known under each key. -/
theorem stringsOfMembers_ofList {members : Members} {origins : List (String × List Origin)}
    (h : members.map (Prod.map id strings) = origins.map (Prod.map id (List.map Origin.text))) :
    stringsOfMembers (Keyed.ofList members)
      = ((Keyed.ofList origins).flatMap Prod.snd).map Origin.text := by
  rw [stringsOfMembers_eq, ← Keyed.ofList_map, h, Keyed.ofList_map, List.map_flatMap,
    List.flatMap_map]
  rfl

end Json

namespace Token

/-! ### The list is exact -/

theorem strings_of_resolveArgument {d : Declarations} {name : String} {v : Json}
    (h : resolveArgument d name = .ok v) : v.strings = [reference name] := by
  unfold resolveArgument at h
  split at h
  · cases h
    rfl
  · cases h

theorem strings_of_resolveConstant {d : Declarations} {name : String} {v : Json}
    (h : resolveConstant d name = .ok v) :
    v.strings = (d.constantOrigins name).map Origin.text := by
  unfold resolveConstant at h
  unfold Declarations.constantOrigins
  cases hvalue : d.constant? name with
  | some value =>
      rw [hvalue] at h
      cases h
      simp [Function.comp_def, Origin.text]
  | none =>
      rw [hvalue] at h
      cases h

mutual

/-- **The strings of a resolved token are those that its origins list.** -/
theorem strings_of_resolve {d : Declarations} : (t : Token) → ∀ {v : Json},
    t.resolve d = .ok v → v.strings = (t.origins d).map Origin.text
  | .literal value => by
      intro h
      cases h
      simp [origins, Function.comp_def, Origin.text]
  | .placeholder name => by
      intro h
      rw [resolve] at h
      rw [origins]
      cases hvalue : d.constant? name with
      | some value =>
          rw [hvalue] at h
          refine strings_of_resolveConstant ?_
          rw [resolveConstant, hvalue]
          exact h
      | none =>
          rw [hvalue] at h
          exact strings_of_resolveArgument h
  | .constant name => by
      intro h
      rw [resolve] at h
      rw [origins]
      exact strings_of_resolveConstant h
  | .argument name => by
      intro h
      rw [resolve] at h
      rw [origins]
      exact strings_of_resolveArgument h
  | .list items => by
      intro h
      rw [resolve] at h
      obtain ⟨vs, hvs, h⟩ := bind_eq_ok.mp h
      cases pure_eq_ok.mp h
      rw [Json.strings, origins]
      exact strings_of_resolveItems items hvs
  | .map entries => by
      intro h
      rw [resolve] at h
      obtain ⟨vs, hvs, h⟩ := bind_eq_ok.mp h
      cases pure_eq_ok.mp h
      rw [Json.strings, origins]
      exact Json.stringsOfMembers_ofList (strings_of_resolveEntries entries hvs)

theorem strings_of_resolveItems {d : Declarations} : (items : List Token) → ∀ {vs : List Json},
    resolveItems d items = .ok vs →
      Json.stringsOfItems vs = (originsOfItems d items).map Origin.text
  | [] => by
      intro h
      cases h
      rfl
  | t :: rest => by
      intro h
      rw [resolveItems] at h
      obtain ⟨v, hv, h⟩ := bind_eq_ok.mp h
      obtain ⟨others, hothers, h⟩ := bind_eq_ok.mp h
      cases pure_eq_ok.mp h
      rw [Json.stringsOfItems, originsOfItems, List.map_append, strings_of_resolve t hv,
        strings_of_resolveItems rest hothers]

theorem strings_of_resolveEntries {d : Declarations} : (entries : List (String × Token)) →
    ∀ {vs : Members}, resolveEntries d entries = .ok vs →
      vs.map (Prod.map id Json.strings)
        = (originsOfEntries d entries).map (Prod.map id (List.map Origin.text))
  | [] => by
      intro h
      cases h
      rfl
  | (k, t) :: rest => by
      intro h
      rw [resolveEntries] at h
      obtain ⟨v, hv, h⟩ := bind_eq_ok.mp h
      obtain ⟨others, hothers, h⟩ := bind_eq_ok.mp h
      cases pure_eq_ok.mp h
      rw [originsOfEntries, List.map_cons, List.map_cons, strings_of_resolveEntries rest hothers,
        Prod.map_apply, Prod.map_apply, strings_of_resolve t hv]

end

/-! ### What is referred to is declared -/

theorem originsOfItems_eq (d : Declarations) (items : List Token) :
    originsOfItems d items = items.flatMap (origins d) := by
  induction items with
  | nil => rfl
  | cons t rest ih => rw [originsOfItems, ih, List.flatMap_cons]

theorem originsOfEntries_eq (d : Declarations) (entries : List (String × Token)) :
    originsOfEntries d entries = entries.map (Prod.map id (origins d)) := by
  induction entries with
  | nil => rfl
  | cons entry rest ih =>
      obtain ⟨k, t⟩ := entry
      rw [originsOfEntries, ih]
      rfl

/-- What is under the keys of a map is what one of the tokens in it resolves to. -/
theorem mem_originsOfEntries {d : Declarations} {entries : List (String × Token)} {o : Origin}
    (h : o ∈ (Keyed.ofList (originsOfEntries d entries)).flatMap Prod.snd) :
    ∃ entry ∈ entries, o ∈ entry.2.origins d := by
  obtain ⟨pair, hpair, ho⟩ := List.mem_flatMap.mp h
  have hmem := Keyed.mem_of_mem_ofList hpair
  rw [originsOfEntries_eq] at hmem
  obtain ⟨entry, hentry, rfl⟩ := List.mem_map.mp hmem
  exact ⟨entry, hentry, ho⟩

theorem argument_notMem_constantOrigins (d : Declarations) (constant name : String) :
    .argument name ∉ d.constantOrigins constant := by
  unfold Declarations.constantOrigins
  split <;> simp

/-- A token that resolves refers to declared arguments only. -/
theorem Resolvable.argument_mem {d : Declarations} {t : Token}
    (h : t.Resolvable d.arguments (Keyed.keys d.constants)) {name : String}
    (hname : .argument name ∈ t.origins d) : name ∈ d.arguments := by
  induction h with
  | literal value => simp [origins] at hname
  | @placeholder found known =>
      rw [origins, Declarations.constant?] at hname
      cases hvalue : Keyed.get? found d.constants with
      | some value =>
          rw [hvalue] at hname
          exact absurd hname (argument_notMem_constantOrigins d found name)
      | none =>
          rw [hvalue] at hname
          obtain rfl : name = found := by simpa using hname
          refine known.resolve_left fun hconstant => ?_
          rw [← Keyed.get?_isSome_iff, hvalue] at hconstant
          cases hconstant
  | @constant found _ =>
      rw [origins] at hname
      exact absurd hname (argument_notMem_constantOrigins d found name)
  | @argument found known =>
      rw [origins] at hname
      obtain rfl : name = found := by simpa using hname
      exact known
  | @list items _ ih =>
      rw [origins, originsOfItems_eq] at hname
      obtain ⟨t, ht, hmem⟩ := List.mem_flatMap.mp hname
      exact ih t ht hmem
  | @map entries _ ih =>
      rw [origins] at hname
      obtain ⟨entry, hentry, hmem⟩ := mem_originsOfEntries hname
      exact ih entry hentry hmem

end Token

/-! ### Conditions -/

/-- What the strings of an operand are. -/
def Operand.origins (d : Declarations) : Operand → List Origin
  | value token => .keyword "value" :: token.origins d
  | database name key property =>
    .keyword "database" :: .label name :: (key.origins d ++ [.label property])
  | statistic measurement field =>
    .keyword "statistic" :: (measurement.origins d ++ [.label field])

mutual

/-- What the strings of a condition are. -/
def Condition.origins (d : Declarations) : Condition → List Origin
  | .binary operator left right =>
    .keyword operator.tag :: (left.origins d ++ right.origins d)
  | .negation child => .keyword negationTag :: child.origins d

/-- What the strings of an expression are. -/
def Expression.origins (d : Declarations) : Expression → List Origin
  | .operand o => o.origins d
  | .condition c => c.origins d

end

theorem Operand.strings_of_build {d : Declarations} {o : Operand} {v : Json}
    (h : o.build d = .ok v) : v.strings = (o.origins d).map Origin.text := by
  cases o with
  | value token =>
      obtain ⟨value, hvalue, h⟩ := bind_eq_ok.mp h
      cases pure_eq_ok.mp h
      simp [Json.strings, Json.stringsOfMembers, origins, Origin.text, tag,
        Token.strings_of_resolve token hvalue]
  | database name key property =>
      obtain ⟨value, hvalue, h⟩ := bind_eq_ok.mp h
      cases pure_eq_ok.mp h
      simp [Json.strings, Json.stringsOfMembers, origins, Origin.text, tag,
        Token.strings_of_resolve key hvalue]
  | statistic measurement field =>
      obtain ⟨value, hvalue, h⟩ := bind_eq_ok.mp h
      cases pure_eq_ok.mp h
      simp [Json.strings, Json.stringsOfMembers, origins, Origin.text, tag,
        Token.strings_of_resolve measurement hvalue]

mutual

/-- **The strings of a built condition are those that its origins list.** -/
theorem Condition.strings_of_build {d : Declarations} : (c : Condition) → ∀ {v : Json},
    c.build d = .ok v → v.strings = (c.origins d).map Origin.text
  | .binary operator left right => by
      intro h
      rw [Condition.build] at h
      obtain ⟨l, hl, h⟩ := bind_eq_ok.mp h
      obtain ⟨r, hr, h⟩ := bind_eq_ok.mp h
      cases pure_eq_ok.mp h
      simp [Json.strings, Json.stringsOfMembers, Condition.origins, Origin.text,
        Expression.strings_of_build left hl, Expression.strings_of_build right hr]
  | .negation child => by
      intro h
      rw [Condition.build] at h
      obtain ⟨c, hc, h⟩ := bind_eq_ok.mp h
      cases pure_eq_ok.mp h
      simp [Json.strings, Json.stringsOfMembers, Condition.origins, Origin.text,
        Expression.strings_of_build child hc]

theorem Expression.strings_of_build {d : Declarations} : (e : Expression) → ∀ {v : Json},
    e.build d = .ok v → v.strings = (e.origins d).map Origin.text
  | .operand o => by
      intro h
      rw [Expression.build] at h
      rw [Expression.origins]
      exact Operand.strings_of_build h
  | .condition c => by
      intro h
      rw [Expression.build] at h
      rw [Expression.origins]
      exact Condition.strings_of_build c h

end

theorem Operand.argument_mem {d : Declarations} {o : Operand} {name : String}
    (h : .argument name ∈ o.origins d) : .argument name ∈ o.token.origins d := by
  cases o <;> simpa [origins, token] using h

mutual

/-- The references in a condition are those of the tokens at its leaves. -/
theorem Condition.argument_mem {d : Declarations} {name : String} : (c : Condition) →
    .argument name ∈ c.origins d → ∃ t ∈ c.tokens, .argument name ∈ t.origins d
  | .binary operator left right => by
      intro h
      simp only [Condition.origins, List.mem_cons, reduceCtorEq, List.mem_append,
        false_or] at h
      rcases h with h | h
      · obtain ⟨t, ht, hmem⟩ := Expression.argument_mem left h
        exact ⟨t, by rw [Condition.tokens]; exact List.mem_append_left _ ht, hmem⟩
      · obtain ⟨t, ht, hmem⟩ := Expression.argument_mem right h
        exact ⟨t, by rw [Condition.tokens]; exact List.mem_append_right _ ht, hmem⟩
  | .negation child => by
      intro h
      simp only [Condition.origins, List.mem_cons, reduceCtorEq, false_or] at h
      rw [Condition.tokens]
      exact Expression.argument_mem child h

theorem Expression.argument_mem {d : Declarations} {name : String} : (e : Expression) →
    .argument name ∈ e.origins d → ∃ t ∈ e.tokens, .argument name ∈ t.origins d
  | .operand o => by
      intro h
      rw [Expression.origins] at h
      rw [Expression.tokens]
      exact ⟨o.token, List.mem_singleton_self _, Operand.argument_mem h⟩
  | .condition c => by
      intro h
      rw [Expression.origins] at h
      rw [Expression.tokens]
      exact Condition.argument_mem c h

end

end Testbed
