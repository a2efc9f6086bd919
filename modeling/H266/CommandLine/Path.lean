/-!
# Paths

A path is a text in which slashes separate names. It starts at the root if its first character
is a slash, and otherwise at the working directory. The name `.` stands for the directory
reached so far and `..` for the one that this directory lies in; empty names mean nothing.

## Main results

* `Path.length_lt_of_parent?`: the path of the directory that a path lies in is shorter.
-/

namespace H266.CommandLine.Path

/-! ### Names -/

/-- The names in a path. -/
def names (path : String) : List String :=
  (path.splitOn "/").filter (· ≠ "")

/-- Whether a path starts at the root and not at the working directory. -/
def isAbsolute (path : String) : Bool :=
  path.toList.head? = some '/'

/-- Whether a path ends with a slash, so that it can only be that of a directory. -/
def endsInSlash (path : String) : Bool :=
  path.toList.getLast? = some '/'

/-! ### Parents -/

/-- A path, given from its end, without what means nothing there: slashes, and the name `.`
after a slash. -/
def trim : List Char → List Char
  | '/' :: rest => trim rest
  | '.' :: '/' :: rest => trim rest
  | rest => rest

/-- The directory that a path lies in, if the path names one. A path of one name lies in the
working directory, which it does not name, and the root lies in no directory. -/
def parent? (path : String) : Option String :=
  match trim path.toList.reverse with
  | [] => none
  | trimmed =>
    match trim (trimmed.dropWhile (· ≠ '/')) with
    | [] => if isAbsolute path then some "/" else none
    | parent => some (String.ofList parent.reverse)

theorem length_trim_le (path : List Char) : (trim path).length ≤ path.length := by
  fun_induction trim path with
  | case1 rest ih => exact Nat.le_succ_of_le ih
  | case2 rest ih => exact Nat.le_succ_of_le (Nat.le_succ_of_le ih)
  | case3 rest => exact Nat.le_refl _

theorem trim_ne_slash_cons (path rest : List Char) : trim path ≠ '/' :: rest := by
  fun_induction trim path with
  | case1 _ ih => exact ih
  | case2 _ ih => exact ih
  | case3 path h _ => exact fun heq => h rest heq

/-- A name follows what was trimmed, so something is dropped with it. -/
theorem length_dropWhile_trim_lt {path : List Char} (h : trim path ≠ []) :
    ((trim path).dropWhile (· ≠ '/')).length < (trim path).length := by
  cases htrim : trim path with
  | nil => exact absurd htrim h
  | cons c rest =>
    have hc : c ≠ '/' := fun heq => trim_ne_slash_cons path rest (heq ▸ htrim)
    rw [List.dropWhile_cons_of_pos (by simpa using hc), List.length_cons]
    exact Nat.lt_succ_of_le (List.dropWhile_sublist _).length_le

/-- The path of the directory that a path lies in is shorter. -/
theorem length_lt_of_parent? {path parent : String} (h : parent? path = some parent) :
    parent.length < path.length := by
  have hle := length_trim_le path.toList.reverse
  rw [List.length_reverse, String.length_toList] at hle
  unfold parent? at h
  split at h
  · simp at h
  · rename_i trimmed hne
    have hlt := length_dropWhile_trim_lt hne
    have hcut := length_trim_le ((trim path.toList.reverse).dropWhile (· ≠ '/'))
    split at h
    · split at h
      · rename_i habs
        obtain rfl : "/" = parent := Option.some.inj h
        cases hpath : path.toList with
        | nil => simp [isAbsolute, hpath] at habs
        | cons c rest =>
          cases rest with
          | nil =>
            obtain rfl : c = '/' := by simpa [isAbsolute, hpath] using habs
            simp [hpath, trim] at hne
          | cons d rest =>
            have hroot : "/".length = 1 := by decide
            rw [← String.length_toList (s := path), hpath, hroot, List.length_cons,
              List.length_cons]
            omega
      · simp at h
    · obtain rfl := Option.some.inj h
      rw [String.length_ofList, List.length_reverse]
      omega

end H266.CommandLine.Path
