/-
Which tokens and conditions can be resolved.

A token resolves exactly if every reference in it, at any depth, names something in the
table that it is meant for.  A condition is built exactly if the tokens at its leaves
resolve; its operators never stand in the way.
-/
import Testbed.Condition
import Testbed.Proofs.Keyed
import Testbed.Proofs.Outcome

namespace Testbed

open Outcome

/-! ### Tokens -/

/-- Every reference in a token names something that is declared where it is looked up. -/
inductive Token.Resolvable (arguments constants : List String) : Token → Prop
  | literal (value : Json) : Resolvable arguments constants (.literal value)
  | placeholder {name : String} (known : name ∈ constants ∨ name ∈ arguments) :
      Resolvable arguments constants (.placeholder name)
  | constant {name : String} (known : name ∈ constants) :
      Resolvable arguments constants (.constant name)
  | argument {name : String} (known : name ∈ arguments) :
      Resolvable arguments constants (.argument name)
  | list {items : List Token} (each : ∀ t ∈ items, Resolvable arguments constants t) :
      Resolvable arguments constants (.list items)
  | map {entries : List (String × Token)}
      (each : ∀ entry ∈ entries, Resolvable arguments constants entry.2) :
      Resolvable arguments constants (.map entries)

namespace Token

/-- Only which names are declared counts, not how often or in which order. -/
theorem Resolvable.mono {arguments constants more : List String} {t : Token}
    (h : t.Resolvable arguments constants) (hsub : ∀ name ∈ constants, name ∈ more) :
    t.Resolvable arguments more := by
  induction h with
  | literal value => exact .literal value
  | placeholder known => exact .placeholder (known.imp_left (hsub _))
  | constant known => exact .constant (hsub _ known)
  | argument known => exact .argument known
  | list _ ih => exact .list ih
  | map _ ih => exact .map ih

theorem succeeds_resolveConstant (d : Declarations) (name : String) :
    Succeeds (resolveConstant d name) ↔ name ∈ Keyed.keys d.constants := by
  rw [← Keyed.get?_isSome_iff]
  unfold resolveConstant Declarations.constant?
  cases Keyed.get? name d.constants with
  | none => exact iff_of_false (not_succeeds_error _) (by simp)
  | some value => exact iff_of_true (succeeds_ok value) rfl

theorem succeeds_resolveArgument (d : Declarations) (name : String) :
    Succeeds (resolveArgument d name) ↔ name ∈ d.arguments := by
  unfold resolveArgument Declarations.isArgument
  by_cases h : name ∈ d.arguments
  · rw [if_pos (by simpa using h)]
    exact iff_of_true (succeeds_ok _) h
  · rw [if_neg (by simpa using h)]
    exact iff_of_false (not_succeeds_error _) h

mutual

/-- **A token resolves exactly if all references in it do.** -/
theorem succeeds_resolve (d : Declarations) : (t : Token) →
    (Succeeds (t.resolve d) ↔ t.Resolvable d.arguments (Keyed.keys d.constants))
  | .literal value => iff_of_true (succeeds_ok value) (.literal value)
  | .placeholder name => by
      have hiff : Succeeds (resolve d (.placeholder name))
          ↔ name ∈ Keyed.keys d.constants ∨ name ∈ d.arguments := by
        rw [← Keyed.get?_isSome_iff, resolve, Declarations.constant?]
        cases Keyed.get? name d.constants with
        | none => simpa using succeeds_resolveArgument d name
        | some value => exact iff_of_true (succeeds_ok value) (Or.inl rfl)
      rw [hiff]
      exact ⟨.placeholder, fun h => by cases h; assumption⟩
  | .constant name => by
      rw [resolve, succeeds_resolveConstant]
      exact ⟨.constant, fun h => by cases h; assumption⟩
  | .argument name => by
      rw [resolve, succeeds_resolveArgument]
      exact ⟨.argument, fun h => by cases h; assumption⟩
  | .list items => by
      rw [resolve, succeeds_bind_pure, succeeds_resolveItems d items]
      exact ⟨.list, fun h => by cases h; assumption⟩
  | .map entries => by
      rw [resolve, succeeds_bind_pure, succeeds_resolveEntries d entries]
      exact ⟨.map, fun h => by cases h; assumption⟩

theorem succeeds_resolveItems (d : Declarations) : (items : List Token) →
    (Succeeds (resolveItems d items)
      ↔ ∀ t ∈ items, t.Resolvable d.arguments (Keyed.keys d.constants))
  | [] => iff_of_true (succeeds_ok []) fun t ht => absurd ht List.not_mem_nil
  | t :: rest => by
      rw [resolveItems, List.forall_mem_cons, ← succeeds_resolve d t,
        ← succeeds_resolveItems d rest]
      exact succeeds_bind_and fun v _ => succeeds_bind_pure

theorem succeeds_resolveEntries (d : Declarations) : (entries : List (String × Token)) →
    (Succeeds (resolveEntries d entries)
      ↔ ∀ entry ∈ entries, entry.2.Resolvable d.arguments (Keyed.keys d.constants))
  | [] => iff_of_true (succeeds_ok []) fun entry hentry => absurd hentry List.not_mem_nil
  | (key, t) :: rest => by
      rw [resolveEntries, List.forall_mem_cons, ← succeeds_resolve d t,
        ← succeeds_resolveEntries d rest]
      exact succeeds_bind_and fun v _ => succeeds_bind_pure

end

/-- Entries resolve to members if each token resolves to the value in its place. -/
theorem resolveEntries_eq_ok {d : Declarations} : ∀ {entries : List (String × Token)}
    {members : Members}, resolveEntries d entries = .ok members
      ↔ entries.map (Prod.map id (resolve d)) = members.map (Prod.map id .ok) := by
  intro entries
  induction entries with
  | nil =>
      intro members
      rw [resolveEntries, Except.ok.injEq, List.map_nil, eq_comm (b := members.map _),
        List.map_eq_nil_iff, eq_comm]
  | cons entry rest ih =>
      intro members
      obtain ⟨key, t⟩ := entry
      rw [resolveEntries]
      simp only [bind_eq_ok, pure_eq_ok, ih]
      refine ⟨?_, ?_⟩
      · intro h
        obtain ⟨v, hv, others, hothers, rfl⟩ := h
        rw [List.map_cons, List.map_cons, hothers, Prod.map_apply, Prod.map_apply, hv]
      · intro h
        obtain ⟨⟨_, v⟩, others, rfl, hmember, hothers⟩ := List.map_eq_cons_iff.mp h.symm
        obtain ⟨rfl, hv⟩ := Prod.mk.inj hmember
        exact ⟨v, hv.symm, others, hothers.symm, rfl⟩

end Token

/-! ### Conditions -/

/-- The token at a leaf of a condition. -/
def Operand.token : Operand → Token
  | value token => token
  | database _ key _ => key
  | statistic measurement _ => measurement

mutual

/-- The tokens at the leaves of a condition. -/
def Condition.tokens : Condition → List Token
  | .binary _ left right => left.tokens ++ right.tokens
  | .negation child => child.tokens

/-- The tokens at the leaves of an expression. -/
def Expression.tokens : Expression → List Token
  | .operand o => [o.token]
  | .condition c => c.tokens

end

theorem Operand.succeeds_build (d : Declarations) (o : Operand) :
    Succeeds (o.build d) ↔ o.token.Resolvable d.arguments (Keyed.keys d.constants) := by
  rw [← Token.succeeds_resolve]
  cases o with
  | value token => exact succeeds_bind_pure
  | database name key property => exact succeeds_bind_pure
  | statistic measurement field => exact succeeds_bind_pure

mutual

/-- **A condition is built exactly if all tokens at its leaves resolve.** -/
theorem Condition.succeeds_build (d : Declarations) : (c : Condition) →
    (Succeeds (c.build d)
      ↔ ∀ t ∈ c.tokens, t.Resolvable d.arguments (Keyed.keys d.constants))
  | .binary operator left right => by
      rw [Condition.build, Condition.tokens, List.forall_mem_append,
        ← Expression.succeeds_build d left, ← Expression.succeeds_build d right]
      exact succeeds_bind_and fun l _ => succeeds_bind_pure
  | .negation child => by
      rw [Condition.build, Condition.tokens, succeeds_bind_pure]
      exact Expression.succeeds_build d child

theorem Expression.succeeds_build (d : Declarations) : (e : Expression) →
    (Succeeds (e.build d)
      ↔ ∀ t ∈ e.tokens, t.Resolvable d.arguments (Keyed.keys d.constants))
  | .operand o => by
      rw [Expression.build, Expression.tokens, List.forall_mem_singleton]
      exact o.succeeds_build d
  | .condition c => by
      rw [Expression.build, Expression.tokens]
      exact Condition.succeeds_build d c

end

end Testbed
