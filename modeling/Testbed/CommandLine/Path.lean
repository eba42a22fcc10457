/-
Paths: names of files and directories, with a slash between the steps.

A path is kept as it was written.  Steps that lead nowhere, the empty ones and the dots
after the first step, are only passed over when a path is taken apart.  Going from a path
to the directory it is in shortens it, so going up always ends.
-/

namespace Testbed

/-- A path as it was written. -/
abbrev Path := String

namespace Path

/-- Whether a path begins at the root. -/
def isAbsolute (p : Path) : Bool := p.toList.head? == some '/'

/-- Whether a path ends in a slash, and so can only be that of a directory. -/
def endsInSlash (p : Path) : Bool := p.toList.getLast? == some '/'

/-- The steps of a path, without the empty ones. -/
def steps (p : Path) : List String :=
  ((p.toList.splitOn '/').filter fun step => !step.isEmpty).map String.ofList

/-- The path of some steps from the working directory on. -/
def ofSteps (steps : List String) : Path := "/".intercalate steps

/-- A path from a directory on; an absolute path does not need the directory. -/
def join (directory path : Path) : Path :=
  if path.isAbsolute || directory.isEmpty then path
  else if directory.endsInSlash then directory ++ path
  else directory ++ "/" ++ path

/-! ### Going up

A path is taken apart from its end, so its characters are turned round first. -/

/-- Drops what leads nowhere at the end of a reversed path: slashes, and dots behind one. -/
def dropIdle : List Char → List Char
  | '/' :: rest => dropIdle rest
  | '.' :: '/' :: rest => dropIdle rest
  | s => s

theorem length_dropIdle_le (s : List Char) : (dropIdle s).length ≤ s.length := by
  fun_induction dropIdle s with
  | case1 rest ih => simp only [List.length_cons]; omega
  | case2 rest ih => simp only [List.length_cons]; omega
  | case3 s _ _ => exact Nat.le_refl _

theorem head?_dropIdle (s : List Char) : (dropIdle s).head? ≠ some '/' := by
  fun_induction dropIdle s with
  | case1 rest ih => exact ih
  | case2 rest ih => exact ih
  | case3 s h _ =>
    cases s with
    | nil => simp
    | cons c rest =>
      intro hc
      simp only [List.head?_cons, Option.some.injEq] at hc
      exact h rest (by rw [hc])

/-- The reversed path of the directory that a reversed path is in, as far as the path tells. -/
def up? (s : List Char) : Option (List Char) :=
  match dropIdle s with
  | [] => none
  | c :: rest =>
    let upper := (c :: rest).dropWhile (· != '/')
    let trimmed := dropIdle upper
    some (if trimmed.isEmpty && !upper.isEmpty then ['/'] else trimmed)

theorem length_up?_lt {s t : List Char} (h : up? s = some t) : t.length < s.length := by
  have hle := length_dropIdle_le s
  have hhead := head?_dropIdle s
  unfold up? at h
  split at h
  · cases h
  · rename_i c rest hs
    rw [hs] at hle hhead
    have hc : (c != '/') = true := by simpa using hhead
    have hupper : (c :: rest).dropWhile (· != '/') = rest.dropWhile (· != '/') := by
      simp [hc]
    have hshort : (rest.dropWhile (· != '/')).length ≤ rest.length :=
      List.IsSuffix.length_le (List.dropWhile_suffix _)
    rw [hupper] at h
    simp only [Option.some.injEq] at h
    subst h
    have htrim := length_dropIdle_le (rest.dropWhile (· != '/'))
    simp only [List.length_cons] at hle
    split
    · rename_i hcond
      simp only [Bool.and_eq_true, Bool.not_eq_true', List.isEmpty_eq_false_iff] at hcond
      have : 0 < (rest.dropWhile (· != '/')).length := List.length_pos_iff.mpr hcond.2
      simp only [List.length_cons, List.length_nil]
      omega
    · omega

/-- The directory that a path is in, as far as the path tells: empty for a single step, none
for the root and the empty path. -/
def parent? (p : Path) : Option Path :=
  (up? p.toList.reverse).map fun s => String.ofList s.reverse

theorem length_parent?_lt {p q : Path} (h : p.parent? = some q) :
    q.toList.length < p.toList.length := by
  obtain ⟨s, hs, rfl⟩ := Option.map_eq_some_iff.mp h
  simpa using length_up?_lt hs

end Path

end Testbed
