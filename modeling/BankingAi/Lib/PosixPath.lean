import Mathlib.Data.List.Infix
import Mathlib.Data.String.Basic
import Mathlib.Logic.Function.Basic

/-!
# POSIX paths and a file system

Pure paths as `pathlib` parses them: empty and `.` components are dropped, `..` stays until the path
is resolved. There are no symbolic links, so resolving is lexical. A resolved path is the list of its
components from the root of the file system, and a `FileSystem` says what is at each of them.
-/

namespace BankingAi.Posix

/-- What a path starts at; two leading slashes, no more, are a root of their own. -/
inductive Root where
  | relative | slash | doubleSlash
deriving DecidableEq

def Root.ofStr (s : String) : Root :=
  match (s.toList.takeWhile (· = '/')).length with
  | 0 => .relative
  | 2 => .doubleSlash
  | _ => .slash

/-- `PurePosixPath`. -/
structure PurePath where
  root : Root
  parts : List String

def partsOf (s : String) : List String :=
  ((s.toList.splitOn '/').filter fun part => part ≠ [] ∧ part ≠ ['.']).map String.ofList

namespace PurePath

def ofStr (s : String) : PurePath := ⟨.ofStr s, partsOf s⟩

/-- `path.is_absolute()`. -/
def absolute (p : PurePath) : Bool := p.root ≠ .relative

/-- The last component, empty if there is none. -/
def name (p : PurePath) : String := p.parts.getLast?.getD ""

/-- `p / key`. -/
def join (p : PurePath) (key : String) : PurePath :=
  let q := ofStr key
  if q.absolute then q else ⟨p.root, p.parts ++ q.parts⟩

end PurePath

/-- One component of a path being resolved. -/
def push (stack : List String) (part : String) : List String :=
  if part = ".." then stack.dropLast else stack ++ [part]

/-- A component that the operating system takes. -/
def Clean (part : String) : Prop := '\x00' ∉ part.toList

instance : DecidablePred Clean := fun part => inferInstanceAs (Decidable ('\x00' ∉ part.toList))

/-- `path.resolve()` in the directory `cwd`, where both roots are that of the file system; `none` is
the `ValueError` of a null character. -/
def PurePath.resolve? (cwd : List String) (p : PurePath) : Option (List String) :=
  if ∀ part ∈ p.parts, Clean part then some (p.parts.foldl push (if p.absolute then [] else cwd))
  else none

/-- `path.parents`. -/
def parents (path : List String) : List (List String) := path.inits.dropLast

theorem inits_concat (path : List String) (part : String) :
    (path ++ [part]).inits = path.inits ++ [path ++ [part]] := by
  rw [List.inits_append]
  rfl

theorem mem_parents_or_eq {root path : List String} :
    (root ∈ parents path ∨ path = root) ↔ root <+: path := by
  have hinits : path.inits = parents path ++ [path] := by
    rcases List.eq_nil_or_concat path with rfl | ⟨l, a, rfl⟩
    · rfl
    · rw [List.concat_eq_append, parents, inits_concat, List.dropLast_concat]
  rw [← List.mem_inits, hinits, List.mem_append, List.mem_singleton, eq_comm]

theorem relative_ofStr {s : String} (h : s.toList.head? ≠ some '/') : (PurePath.ofStr s).root = .relative := by
  have hnone : s.toList.takeWhile (· = '/') = [] := by
    cases hs : s.toList with
    | nil => rfl
    | cons c cs =>
      rw [hs] at h
      exact List.takeWhile_cons_of_neg fun hc => h (by rw [of_decide_eq_true hc]; rfl)
  unfold PurePath.ofStr Root.ofStr
  rw [hnone]
  rfl

/-! ### Components -/

theorem not_mem_of_mem_splitOn {c : Char} {cs part : List Char} (h : part ∈ cs.splitOn c) : c ∉ part := by
  induction cs generalizing part with
  | nil =>
    rw [List.splitOn_nil, List.mem_singleton] at h
    rw [h]
    exact List.not_mem_nil
  | cons x xs ih =>
    rw [List.splitOn_cons_eq_if_modifyHead] at h
    split at h
    case isTrue =>
      rcases List.mem_cons.1 h with rfl | h
      · exact List.not_mem_nil
      · exact ih h
    case isFalse hx =>
      cases hs : xs.splitOn c with
      | nil => exact absurd hs (List.splitOn_ne_nil c xs)
      | cons w ws =>
        rw [hs] at h ih
        rcases List.mem_cons.1 h with rfl | h
        · rw [List.mem_cons, not_or]
          exact ⟨fun hc => hx (by simp [hc]), ih List.mem_cons_self⟩
        · exact ih (List.mem_cons_of_mem _ h)

theorem length_le_of_mem_splitOn {c : Char} {cs part : List Char} (h : part ∈ cs.splitOn c) :
    part.length ≤ cs.length := by
  induction cs generalizing part with
  | nil =>
    rw [List.splitOn_nil, List.mem_singleton] at h
    rw [h]
  | cons x xs ih =>
    rw [List.splitOn_cons_eq_if_modifyHead] at h
    split at h
    case isTrue =>
      rcases List.mem_cons.1 h with rfl | h
      · exact Nat.zero_le _
      · exact (ih h).trans (Nat.le_succ _)
    case isFalse =>
      cases hs : xs.splitOn c with
      | nil => exact absurd hs (List.splitOn_ne_nil c xs)
      | cons w ws =>
        rw [hs] at h ih
        rcases List.mem_cons.1 h with rfl | h
        · exact Nat.succ_le_succ (ih List.mem_cons_self)
        · exact (ih (List.mem_cons_of_mem _ h)).trans (Nat.le_succ _)

theorem length_le_of_mem {s part : String} (h : part ∈ partsOf s) : part.length ≤ s.length := by
  obtain ⟨cs, hcs, rfl⟩ := List.mem_map.1 h
  rw [String.length_ofList]
  exact length_le_of_mem_splitOn (List.mem_filter.1 hcs).1

/-- A component as `partsOf` gives them. -/
structure IsPart (part : String) : Prop where
  noSlash : '/' ∉ part.toList
  nonempty : part ≠ ""
  notDot : part ≠ "."

theorem isPart_of_mem {s part : String} (h : part ∈ partsOf s) : IsPart part := by
  obtain ⟨cs, hcs, rfl⟩ := List.mem_map.1 h
  obtain ⟨hmem, hne⟩ := List.mem_filter.1 hcs
  have hne := of_decide_eq_true hne
  refine ⟨?_, fun h => hne.1 ?_, fun h => hne.2 ?_⟩
  · rw [String.toList_ofList]
    exact not_mem_of_mem_splitOn hmem
  · have := congrArg String.toList h
    rwa [String.toList_ofList] at this
  · have := congrArg String.toList h
    rwa [String.toList_ofList] at this

/-- Two components joined by a slash are parsed as the two. -/
theorem partsOf_join {a b : String} (ha : IsPart a) (hb : IsPart b) : partsOf (a ++ "/" ++ b) = [a, b] := by
  have hkeep : ∀ {p : String}, IsPart p → p.toList ≠ [] ∧ p.toList ≠ ['.'] := fun hp =>
    ⟨fun h => hp.nonempty (String.toList_inj.1 h), fun h => hp.notDot (String.toList_inj.1 h)⟩
  have hsplit : (a ++ "/" ++ b).toList.splitOn '/' = [a.toList, b.toList] := by
    rw [String.toList_append, String.toList_append, List.append_assoc]
    show (a.toList ++ '/' :: b.toList).splitOn '/' = _
    rw [List.splitOn_append_cons_self_of_not_mem ha.noSlash, List.splitOn_eq_singleton hb.noSlash]
  rw [partsOf, hsplit, List.filter_cons_of_pos (by simpa using hkeep ha),
    List.filter_cons_of_pos (by simpa using hkeep hb)]
  simp

theorem partsOf_eq_singleton {a : String} (ha : IsPart a) : partsOf a = [a] := by
  have hkeep : a.toList ≠ [] ∧ a.toList ≠ ['.'] :=
    ⟨fun h => ha.nonempty (String.toList_inj.1 h), fun h => ha.notDot (String.toList_inj.1 h)⟩
  rw [partsOf, List.splitOn_eq_singleton ha.noSlash, List.filter_cons_of_pos (by simpa using hkeep)]
  simp

theorem name_mem {p : PurePath} (h : p.name ≠ "") : p.name ∈ p.parts := by
  unfold PurePath.name at h ⊢
  cases hl : p.parts.getLast? with
  | none =>
    rw [hl] at h
    exact absurd rfl h
  | some part => exact List.mem_of_getLast? hl

/-! ### Files -/

abbrev Bytes := List UInt8

inductive Node where
  | dir
  | file (data : Bytes)
deriving DecidableEq

inductive OsError where
  | fileNotFound | notADirectory | isADirectory | fileExists | nameTooLong
deriving DecidableEq

/-- What is at each resolved path; names have at most `nameMax` bytes. -/
structure FileSystem where
  nameMax : ℕ
  node : List String → Option Node

namespace FileSystem

variable (fs : FileSystem)

def set (path : List String) (n : Node) : FileSystem :=
  { fs with node := Function.update fs.node path (some n) }

/-- The last name of a path is not too long. -/
def fits (path : List String) : Bool := path.getLast?.all (·.utf8ByteSize ≤ fs.nameMax)

/-- `os.mkdir`, if the directory is not there yet. -/
def mkdirOne (path : List String) : Except OsError FileSystem :=
  match fs.node path with
  | some .dir => .ok fs
  | some (.file _) => .error .fileExists
  | none => if fs.fits path then .ok (fs.set path .dir) else .error .nameTooLong

/-- Directories made from the outermost one on; an error leaves those made before it. -/
def mkdirAll : FileSystem → List (List String) → Option OsError × FileSystem
  | fs, [] => (none, fs)
  | fs, path :: paths =>
    match fs.mkdirOne path with
    | .ok fs' => mkdirAll fs' paths
    | .error e => (some e, fs)

/-- `path.mkdir(parents=True, exist_ok=True)`. -/
def mkdir (path : List String) : Option OsError × FileSystem := fs.mkdirAll path.inits

def writeBytes (path : List String) (data : Bytes) : Except OsError FileSystem :=
  match fs.node path with
  | some .dir => .error .isADirectory
  | some (.file _) => .ok (fs.set path (.file data))
  | none =>
    match fs.node path.dropLast with
    | some .dir => if fs.fits path then .ok (fs.set path (.file data)) else .error .nameTooLong
    | some (.file _) => .error .notADirectory
    | none => .error .fileNotFound

def readBytes (path : List String) : Except OsError Bytes :=
  match fs.node path with
  | some (.file data) => .ok data
  | some .dir => .error .isADirectory
  | none => .error .fileNotFound

variable {fs}

theorem node_set (path q : List String) (n : Node) :
    (fs.set path n).node q = if q = path then some n else fs.node q :=
  Function.update_apply ..

theorem writeBytes_eq_ok {fs' : FileSystem} {path : List String} {data : Bytes}
    (h : fs.writeBytes path data = .ok fs') : fs' = fs.set path (.file data) := by
  unfold writeBytes at h
  split at h
  · cases h
  · exact (Except.ok.inj h).symm
  · split at h
    · split at h
      · exact (Except.ok.inj h).symm
      · cases h
    · cases h
    · cases h

theorem mkdirAll_of_dirs {paths : List (List String)} (h : ∀ q ∈ paths, fs.node q = some .dir) :
    fs.mkdirAll paths = (none, fs) := by
  induction paths with
  | nil => rfl
  | cons path paths ih =>
    rw [mkdirAll, mkdirOne, h path List.mem_cons_self]
    exact ih fun q hq => h q (List.mem_cons_of_mem _ hq)

theorem mkdirAll_append {paths paths' : List (List String)} {fs' : FileSystem}
    (h : fs.mkdirAll paths = (none, fs')) : fs.mkdirAll (paths ++ paths') = fs'.mkdirAll paths' := by
  induction paths generalizing fs with
  | nil => cases h; rfl
  | cons path paths ih =>
    rw [List.cons_append, mkdirAll]
    rw [mkdirAll] at h
    cases hone : fs.mkdirOne path with
    | ok fs₁ =>
      rw [hone] at h
      exact ih h
    | error e =>
      rw [hone] at h
      cases h

end FileSystem
end BankingAi.Posix
