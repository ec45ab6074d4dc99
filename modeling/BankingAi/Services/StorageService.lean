import Mathlib.Data.Bool.AllAny
import BankingAi.Core.Security
import BankingAi.Lib.Machine
import BankingAi.Lib.PosixPath

/-!
# Content-addressed storage

A file is kept under the digest of its bytes and the last component of its name. The guard on keys
lets a key through that resolves to the root itself, and the name `..` gives such a key: that upload
is refused by the file system. Every other upload is stored and read back.
-/

namespace BankingAi

open Posix

/-- The hexadecimal digits of a digest. -/
def hexDigits : List Char := "0123456789abcdef".toList

/-- What `hexdigest` gives: 64 hexadecimal digits. -/
structure HexDigest (sha256 : Bytes → String) : Prop where
  digits : ∀ data, ∀ c ∈ (sha256 data).toList, c ∈ hexDigits
  size : ∀ data, (sha256 data).utf8ByteSize = 64

/-- `Path(filename).name or "file"`. -/
def safeName (filename : String) : String :=
  let name := (PurePath.ofStr filename).name
  if name = "" then "file" else name

def contentKey (sha256 : Bytes → String) (filename : String) (data : Bytes) : String :=
  sha256 data ++ "/" ++ safeName filename

/-- A root directory that exists, and the working directory it may be relative to. -/
structure LocalFileStorage where
  cwd : List String
  root : PurePath
  clean : ∀ part ∈ root.parts, Clean part

namespace LocalFileStorage

variable (st : LocalFileStorage)

/-- `self._root.resolve()`. -/
def base : List String := st.root.parts.foldl push (if st.root.absolute then [] else st.cwd)

def path (key : String) : Except ValueError (List String) :=
  match (st.root.join key).resolve? st.cwd with
  | none => .error ⟨"ValueError", "embedded null byte"⟩
  | some path =>
    if st.base ∉ parents path ∧ path ≠ st.base then .error ⟨"ValueError", "Illegal storage key."⟩
    else .ok path

/-- An exception of storage. -/
inductive Failure where
  | value (e : ValueError)
  | os (e : OsError)

def put (fs : FileSystem) (key : String) (data : Bytes) : Except Failure String × FileSystem :=
  match st.path key with
  | .error e => (.error (.value e), fs)
  | .ok path =>
    match fs.mkdir path.dropLast with
    | (some e, fs') => (.error (.os e), fs')
    | (none, fs') =>
      match fs'.writeBytes path data with
      | .error e => (.error (.os e), fs')
      | .ok fs'' => (.ok key, fs'')

def get (fs : FileSystem) (key : String) : Except Failure Bytes :=
  match st.path key with
  | .error e => .error (.value e)
  | .ok path =>
    match fs.readBytes path with
    | .error e => .error (.os e)
    | .ok data => .ok data

end LocalFileStorage

/-- One step stores a file under its content key. -/
def storageMachine (st : LocalFileStorage) (sha256 : Bytes → String) :
    Machine FileSystem (String × Bytes) (Except LocalFileStorage.Failure String) where
  step fs upload := st.put fs (contentKey sha256 upload.1 upload.2) upload.2

/-! ### Keys -/

section keys

variable {st : LocalFileStorage} {sha256 : Bytes → String} {filename : String} {data : Bytes}

/-- What the guard lets through is the root or below it. -/
theorem base_prefix_of_path {key : String} {path : List String} (h : st.path key = .ok path) :
    st.base <+: path := by
  unfold LocalFileStorage.path at h
  split at h
  case h_1 => cases h
  case h_2 p hp =>
    split at h
    case isTrue => cases h
    case isFalse hguard =>
      cases h
      rw [← mem_parents_or_eq]
      by_contra hnot
      rw [not_or] at hnot
      exact hguard hnot

theorem hexDigit_ne {c d : Char} (hc : c ∈ hexDigits) (hd : d ∉ hexDigits) : c ≠ d := by
  rintro rfl
  exact hd hc

theorem HexDigest.notMem (h : HexDigest sha256) {d : Char} (hd : d ∉ hexDigits) (data : Bytes) :
    d ∉ (sha256 data).toList := fun hmem => hd (h.digits data d hmem)

theorem HexDigest.nonempty (h : HexDigest sha256) : sha256 data ≠ "" := by
  intro hempty
  have := h.size data
  rw [hempty] at this
  cases this

theorem HexDigest.isPart (h : HexDigest sha256) : IsPart (sha256 data) where
  noSlash := h.notMem (by decide) data
  nonempty := h.nonempty
  notDot hdot := h.notMem (d := '.') (by decide) data (by rw [hdot]; decide)

theorem HexDigest.ne_dots (h : HexDigest sha256) : sha256 data ≠ ".." := fun hdots =>
  h.notMem (d := '.') (by decide) data (by rw [hdots]; decide)

theorem isPart_safeName (filename : String) : IsPart (safeName filename) := by
  unfold safeName
  dsimp only
  split
  case isTrue => exact ⟨by decide, by decide, by decide⟩
  case isFalse h => exact isPart_of_mem (name_mem h)

theorem clean_safeName (h : ∀ part ∈ partsOf filename, Clean part) : Clean (safeName filename) := by
  unfold safeName
  dsimp only
  split
  case isTrue => decide
  case isFalse hne => exact h _ (name_mem hne)

theorem contentKey_relative (hsha : HexDigest sha256) :
    (PurePath.ofStr (contentKey sha256 filename data)).root = .relative := by
  refine relative_ofStr fun hhead => ?_
  rw [contentKey, String.toList_append, String.toList_append, List.append_assoc] at hhead
  cases hl : (sha256 data).toList with
  | nil => exact hsha.nonempty (String.toList_inj.1 hl)
  | cons c cs =>
    rw [hl] at hhead
    have hc : c = '/' := Option.some.inj hhead
    exact hsha.isPart.noSlash (by rw [hl, ← hc]; exact List.mem_cons_self)

theorem path_contentKey (st : LocalFileStorage) (filename : String) (data : Bytes)
    (hsha : HexDigest sha256) (hclean : ∀ part ∈ partsOf filename, Clean part) :
    st.path (contentKey sha256 filename data) =
      .ok (if safeName filename = ".." then st.base else st.base ++ [sha256 data, safeName filename]) := by
  have hparts : partsOf (contentKey sha256 filename data) = [sha256 data, safeName filename] :=
    partsOf_join hsha.isPart (isPart_safeName filename)
  have hjoin : st.root.join (contentKey sha256 filename data) =
      ⟨st.root.root, st.root.parts ++ [sha256 data, safeName filename]⟩ := by
    unfold PurePath.join PurePath.absolute
    dsimp only
    rw [contentKey_relative hsha, ← hparts]
    rfl
  have hall : ∀ part ∈ st.root.parts ++ [sha256 data, safeName filename], Clean part := by
    intro part hpart
    rcases List.mem_append.1 hpart with hpart | hpart
    · exact st.clean part hpart
    · simp only [List.mem_cons, List.not_mem_nil, or_false] at hpart
      rcases hpart with rfl | rfl
      · exact hsha.notMem (by decide) _
      · exact clean_safeName hclean
  have hresolve : (st.root.join (contentKey sha256 filename data)).resolve? st.cwd =
      some (if safeName filename = ".." then st.base
        else st.base ++ [sha256 data, safeName filename]) := by
    rw [hjoin, PurePath.resolve?, if_pos hall, List.foldl_append]
    show some (push (push st.base _) _) = _
    rw [push, push, if_neg hsha.ne_dots]
    split
    · rw [List.dropLast_concat]
    · rw [List.append_assoc]
      rfl
  unfold LocalFileStorage.path
  rw [hresolve]
  dsimp only
  refine if_neg fun hnot => ?_
  rw [← not_or, mem_parents_or_eq] at hnot
  split at hnot
  · exact hnot (List.prefix_refl _)
  · exact hnot (List.prefix_append _ _)

end keys

/-! ### Uploads -/

/-- The tree of stored files: the root is a directory, below it are directories of files. -/
structure Layout (st : LocalFileStorage) (fs : FileSystem) : Prop where
  root : ∀ q, q <+: st.base → fs.node q = some .dir
  level₁ : ∀ x data, fs.node (st.base ++ [x]) ≠ some (.file data)
  level₂ : ∀ x y, fs.node (st.base ++ [x, y]) ≠ some .dir

/-- The root as it is created: a directory with nothing below it. -/
structure EmptyRoot (st : LocalFileStorage) (fs : FileSystem) : Prop where
  root : ∀ q, q <+: st.base → fs.node q = some .dir
  below : ∀ rest, rest ≠ [] → fs.node (st.base ++ rest) = none

theorem EmptyRoot.layout {st : LocalFileStorage} {fs : FileSystem} (h : EmptyRoot st fs) : Layout st fs where
  root := h.root
  level₁ x data := by
    rw [h.below [x] (by simp)]
    nofun
  level₂ x y := by
    rw [h.below [x, y] (by simp)]
    nofun

section put

variable {st : LocalFileStorage} {sha256 : Bytes → String} {fs : FileSystem}

theorem not_prefix_base {rest q : List String} (hrest : rest ≠ []) (hq : q <+: st.base) :
    q ≠ st.base ++ rest := by
  rintro rfl
  have hlen := hq.length_le
  rw [List.length_append] at hlen
  have := List.length_pos_of_ne_nil hrest
  omega

theorem mkdir_digest (h : Layout st fs) {x : String} (hx : x.utf8ByteSize ≤ fs.nameMax) :
    ∃ fs', fs.mkdir (st.base ++ [x]) = (none, fs') ∧ fs'.nameMax = fs.nameMax ∧
      ∀ q, fs'.node q = if q = st.base ++ [x] then some .dir else fs.node q := by
  have hroot : fs.mkdirAll st.base.inits = (none, fs) :=
    FileSystem.mkdirAll_of_dirs fun q hq => h.root q ((List.mem_inits q _).1 hq)
  rw [FileSystem.mkdir, inits_concat, FileSystem.mkdirAll_append hroot, FileSystem.mkdirAll,
    FileSystem.mkdirOne]
  cases hnode : fs.node (st.base ++ [x]) with
  | none =>
    have hfits : fs.fits (st.base ++ [x]) = true := by
      rw [FileSystem.fits, List.getLast?_concat]
      exact decide_eq_true hx
    dsimp only
    rw [if_pos hfits]
    exact ⟨_, rfl, rfl, fun q => FileSystem.node_set _ q _⟩
  | some n =>
    cases n with
    | file data => exact absurd hnode (h.level₁ x data)
    | dir =>
      refine ⟨fs, rfl, rfl, fun q => ?_⟩
      split
      case isTrue hq => rw [hq, hnode]
      case isFalse => rfl

theorem writeBytes_file (h : Layout st fs) {fs₁ : FileSystem} {x y : String} (data : Bytes)
    (hnode : ∀ q, fs₁.node q = if q = st.base ++ [x] then some .dir else fs.node q)
    (hy : y.utf8ByteSize ≤ fs₁.nameMax) :
    fs₁.writeBytes (st.base ++ [x, y]) data = .ok (fs₁.set (st.base ++ [x, y]) (.file data)) := by
  have hsplit : st.base ++ [x, y] = (st.base ++ [x]) ++ [y] := by simp
  have hfile : fs₁.node (st.base ++ [x, y]) = fs.node (st.base ++ [x, y]) := by
    rw [hnode, if_neg (by simp)]
  have hparent : fs₁.node (st.base ++ [x, y]).dropLast = some .dir := by
    rw [hsplit, List.dropLast_concat, hnode, if_pos rfl]
  have hfits : fs₁.fits (st.base ++ [x, y]) = true := by
    rw [FileSystem.fits, hsplit, List.getLast?_concat]
    exact decide_eq_true hy
  rw [FileSystem.writeBytes, hfile]
  cases hn : fs.node (st.base ++ [x, y]) with
  | none =>
    dsimp only
    rw [hparent]
    dsimp only
    rw [if_pos hfits]
  | some n =>
    cases n with
    | dir => exact absurd hn (h.level₂ x y)
    | file d => rfl

theorem Layout.stored (h : Layout st fs) {fs' : FileSystem} {x y : String} {data : Bytes}
    (hnode : ∀ q, fs'.node q = if q = st.base ++ [x, y] then some (.file data)
      else if q = st.base ++ [x] then some .dir else fs.node q) : Layout st fs' where
  root q hq := by
    rw [hnode, if_neg (not_prefix_base (by simp) hq), if_neg (not_prefix_base (by simp) hq)]
    exact h.root q hq
  level₁ x' d := by
    rw [hnode, if_neg (by simp)]
    split
    · nofun
    · exact h.level₁ x' d
  level₂ x' y' := by
    rw [hnode]
    split
    · nofun
    · rw [if_neg (by simp)]
      exact h.level₂ x' y'

/-- A file is stored two levels below the root, and nothing else changes but the directory of its
digest. -/
theorem put_file (h : Layout st fs) {key x y : String} {data : Bytes}
    (hpath : st.path key = .ok (st.base ++ [x, y])) (hx : x.utf8ByteSize ≤ fs.nameMax)
    (hy : y.utf8ByteSize ≤ fs.nameMax) :
    ∃ fs', st.put fs key data = (.ok key, fs') ∧ Layout st fs' ∧ fs'.nameMax = fs.nameMax ∧
      ∀ x' y', fs'.node (st.base ++ [x', y']) =
        if x' = x ∧ y' = y then some (.file data) else fs.node (st.base ++ [x', y']) := by
  have hdrop : (st.base ++ [x, y]).dropLast = st.base ++ [x] := by
    rw [show st.base ++ [x, y] = (st.base ++ [x]) ++ [y] by simp, List.dropLast_concat]
  obtain ⟨fs₁, hmkdir, hmax, hnode₁⟩ := mkdir_digest h hx
  have hwrite := writeBytes_file h data hnode₁ (hmax ▸ hy)
  have hnode : ∀ q, (fs₁.set (st.base ++ [x, y]) (.file data)).node q =
      if q = st.base ++ [x, y] then some (.file data)
      else if q = st.base ++ [x] then some .dir else fs.node q := by
    intro q
    rw [FileSystem.node_set, hnode₁]
  refine ⟨fs₁.set (st.base ++ [x, y]) (.file data), ?_, h.stored hnode, hmax, ?_⟩
  · unfold LocalFileStorage.put
    rw [hpath]
    dsimp only
    rw [hdrop, hmkdir]
    dsimp only
    rw [hwrite]
  · intro x' y'
    rw [hnode]
    simp only [List.append_cancel_left_eq, List.cons.injEq, and_true]
    split
    · rfl
    · rw [if_neg (by simp)]

end put

/-- What content addressing promises of any key and of a run of uploads. -/
structure ContentAddressed (st : LocalFileStorage) (sha256 : Bytes → String) (fs : FileSystem)
    (uploads : List (String × Bytes)) : Prop where
  guarded : ∀ key path, st.path key = .ok path → st.base <+: path
  placed : ∀ u ∈ uploads,
    st.path (contentKey sha256 u.1 u.2) = .ok (st.base ++ [sha256 u.2, safeName u.1])
  puts : ∀ t ∈ (storageMachine st sha256).trace fs uploads,
    t.output = .ok (contentKey sha256 t.input.1 t.input.2)
  gets : ∀ done, done <+: uploads → ∀ u ∈ done,
    st.get ((storageMachine st sha256).run fs done) (contentKey sha256 u.1 u.2) = .ok u.2

/-- The components of the file name have no null character and are not too long. -/
def Nameable (fs : FileSystem) (filename : String) : Prop :=
  ∀ part ∈ partsOf filename, Clean part ∧ part.utf8ByteSize ≤ fs.nameMax

instance (fs : FileSystem) (filename : String) : Decidable (Nameable fs filename) :=
  inferInstanceAs (Decidable (∀ part ∈ partsOf filename, Clean part ∧ part.utf8ByteSize ≤ fs.nameMax))

section uploads

variable {st : LocalFileStorage} {sha256 : Bytes → String} {fs : FileSystem}
  {uploads : List (String × Bytes)}

theorem safeName_eq_dots {filename : String} :
    safeName filename = ".." ↔ (PurePath.ofStr filename).name = ".." := by
  unfold safeName
  dsimp only
  split
  case isTrue h =>
    rw [h]
    exact iff_of_false (by decide) (by decide)
  case isFalse => rfl

theorem safeName_size {filename : String} (h : Nameable fs filename) (hmax : 64 ≤ fs.nameMax) :
    (safeName filename).utf8ByteSize ≤ fs.nameMax := by
  unfold safeName
  dsimp only
  split
  case isTrue => exact le_trans (by decide : "file".utf8ByteSize ≤ 64) hmax
  case isFalse hne => exact (h _ (name_mem hne)).2

/-- Every upload of the list is where its key is resolved to. -/
def StoredAt (st : LocalFileStorage) (sha256 : Bytes → String) (fs : FileSystem)
    (uploads : List (String × Bytes)) : Prop :=
  ∀ u ∈ uploads, fs.node (st.base ++ [sha256 u.2, safeName u.1]) = some (.file u.2)

variable (hsha : HexDigest sha256) (hmax : 64 ≤ fs.nameMax)
include hsha hmax

/-- The step of an upload: it is stored, and the uploads before it stay, if there is no collision. -/
theorem upload_step (h : Layout st fs) {u : String × Bytes} (hname : Nameable fs u.1)
    (hdots : (PurePath.ofStr u.1).name ≠ "..") :
    ∃ fs', st.put fs (contentKey sha256 u.1 u.2) u.2 = (.ok (contentKey sha256 u.1 u.2), fs') ∧
      Layout st fs' ∧ fs'.nameMax = fs.nameMax ∧
      ∀ done, (∀ v ∈ done, sha256 v.2 = sha256 u.2 → v.2 = u.2) → StoredAt st sha256 fs done →
        StoredAt st sha256 fs' (done ++ [u]) := by
  have hpath := path_contentKey st u.1 u.2 hsha fun part hpart => (hname part hpart).1
  rw [if_neg (mt safeName_eq_dots.1 hdots)] at hpath
  obtain ⟨fs', hput, hlayout, hmax', hnode⟩ := put_file h hpath (by rw [hsha.size]; exact hmax)
    (safeName_size hname hmax)
  refine ⟨fs', hput, hlayout, hmax', fun done hcol hdone v hv => ?_⟩
  rw [hnode]
  rcases List.mem_append.1 hv with hv | hv
  · split
    case isTrue heq => rw [hcol v hv heq.1]
    case isFalse => exact hdone v hv
  · rw [List.mem_singleton.1 hv, if_pos ⟨rfl, rfl⟩]

theorem uploads_run (h : Layout st fs) (hnames : ∀ u ∈ uploads, Nameable fs u.1)
    (hcol : ∀ u ∈ uploads, ∀ v ∈ uploads, sha256 u.2 = sha256 v.2 → u.2 = v.2)
    (hdots : ∀ u ∈ uploads, (PurePath.ofStr u.1).name ≠ "..") :
    let fs' := (storageMachine st sha256).run fs uploads
    Layout st fs' ∧ fs'.nameMax = fs.nameMax ∧ StoredAt st sha256 fs' uploads := by
  induction uploads using List.reverseRecOn with
  | nil => exact ⟨h, rfl, fun u hu => absurd hu List.not_mem_nil⟩
  | append_singleton uploads u ih =>
    have hmem : ∀ v ∈ uploads, v ∈ uploads ++ [u] := fun v hv => List.mem_append_left _ hv
    have hu : u ∈ uploads ++ [u] := by simp
    obtain ⟨hlayout, hmax', hstored⟩ := ih (fun v hv => hnames v (hmem v hv))
      (fun v hv v' hv' => hcol v (hmem v hv) v' (hmem v' hv')) fun v hv => hdots v (hmem v hv)
    have hname : Nameable ((storageMachine st sha256).run fs uploads) u.1 := fun part hpart =>
      hmax'.symm ▸ hnames u hu part hpart
    obtain ⟨fs', hput, hlayout', hmax'', hstep⟩ := upload_step hsha (hmax'.symm ▸ hmax) hlayout hname
      (hdots u hu)
    have hnext : (storageMachine st sha256).run fs (uploads ++ [u]) = fs' :=
      (Machine.run_concat _ _ _).trans (congrArg Prod.snd hput)
    dsimp only
    rw [hnext]
    exact ⟨hlayout', hmax''.trans hmax',
      hstep uploads (fun v hv => hcol v (hmem v hv) u hu) hstored⟩

end uploads

/-- Storage is content-addressed, over any run of uploads without a collision, if and only if no file
name ends in the component `..`. -/
theorem content_addressed_iff (st : LocalFileStorage) (sha256 : Bytes → String)
    (hsha : HexDigest sha256) (fs : FileSystem) (hroot : EmptyRoot st fs) (hmax : 64 ≤ fs.nameMax)
    (uploads : List (String × Bytes)) (hnames : ∀ u ∈ uploads, Nameable fs u.1)
    (hcol : ∀ u ∈ uploads, ∀ v ∈ uploads, sha256 u.2 = sha256 v.2 → u.2 = v.2) :
    ContentAddressed st sha256 fs uploads ↔ ∀ u ∈ uploads, (PurePath.ofStr u.1).name ≠ ".." := by
  have hpath : ∀ u ∈ uploads, st.path (contentKey sha256 u.1 u.2) =
      .ok (if safeName u.1 = ".." then st.base else st.base ++ [sha256 u.2, safeName u.1]) :=
    fun u hu => path_contentKey _ _ _ hsha fun part hpart => (hnames u hu part hpart).1
  constructor
  · intro h u hu hdots
    have hplaced := h.placed u hu
    rw [hpath u hu, if_pos (safeName_eq_dots.2 hdots)] at hplaced
    have hlen := congrArg List.length (Except.ok.inj hplaced)
    rw [List.length_append] at hlen
    simp at hlen
  · intro hdots
    have hplaced : ∀ u ∈ uploads,
        st.path (contentKey sha256 u.1 u.2) = .ok (st.base ++ [sha256 u.2, safeName u.1]) := by
      intro u hu
      rw [hpath u hu, if_neg (mt safeName_eq_dots.1 (hdots u hu))]
    have hrun : ∀ done, done <+: uploads →
        let fs' := (storageMachine st sha256).run fs done
        Layout st fs' ∧ fs'.nameMax = fs.nameMax ∧ StoredAt st sha256 fs' done := fun done hdone =>
      uploads_run hsha hmax hroot.layout (fun u hu => hnames u (hdone.subset hu))
        (fun u hu v hv => hcol u (hdone.subset hu) v (hdone.subset hv)) fun u hu => hdots u (hdone.subset hu)
    refine ⟨fun key path => base_prefix_of_path, hplaced, fun t ht => ?_, fun done hdone u hu => ?_⟩
    · obtain ⟨js, i, hjs, rfl⟩ := Machine.mem_trace ht
      obtain ⟨hlayout, hmax', -⟩ := hrun js ((List.prefix_append js [i]).trans hjs)
      have hi : i ∈ uploads := hjs.subset (by simp)
      have hname : Nameable ((storageMachine st sha256).run fs js) i.1 := fun part hpart =>
        hmax'.symm ▸ hnames i hi part hpart
      obtain ⟨fs', hput, -⟩ := upload_step hsha (hmax'.symm ▸ hmax) hlayout hname (hdots i hi)
      exact congrArg Prod.fst hput
    · obtain ⟨-, -, hstored⟩ := hrun done hdone
      have hnode := hstored u hu
      unfold LocalFileStorage.get
      rw [hplaced u (hdone.subset hu)]
      dsimp only
      rw [FileSystem.readBytes, hnode]

/-- `sha256`, of the empty string and of `a`. -/
def sampleDigest (data : Bytes) : String :=
  if data = [] then "e3b0c44298fc1c149afbf4c8996fb92427ae41e4649b934ca495991b7852b855"
  else "ca978112ca1bbdcafac231b39a23dc4da786eff8147c4e72b9807785afee48bb"

theorem hexDigest_sampleDigest : HexDigest sampleDigest where
  digits data := by
    refine List.all_iff_forall_prop.1 ?_
    unfold sampleDigest
    split
    · rfl
    · rfl
  size data := by
    unfold sampleDigest
    split
    · decide +kernel
    · decide +kernel

def objectStorage : LocalFileStorage where
  cwd := ["app"]
  root := .ofStr "data/objects"
  clean := by decide +kernel

/-- The root and the directories above it. -/
def freshFiles : FileSystem where
  nameMax := 255
  node path := if path <+: ["app", "data", "objects"] then some .dir else none

theorem emptyRoot_freshFiles : EmptyRoot objectStorage freshFiles where
  root q hq := if_pos hq
  below rest hrest := by
    refine if_neg fun h => ?_
    have hlen := h.length_le
    rw [List.length_append] at hlen
    have := List.length_pos_of_ne_nil hrest
    have hbase : objectStorage.base.length = 3 := by decide +kernel
    simp only [hbase, List.length_cons, List.length_nil] at hlen
    omega

theorem content_addressed_iff_report :
    ContentAddressed objectStorage sampleDigest freshFiles
      [("report.txt", []), ("/tmp/../report.txt", [97]), ("", [97])] :=
  (content_addressed_iff objectStorage sampleDigest hexDigest_sampleDigest freshFiles
    emptyRoot_freshFiles (by decide) _ (by decide +kernel) (by decide +kernel)).2 (by decide +kernel)

/-- An upload named `..` is refused. -/
theorem dots_refused :
    ¬ ContentAddressed objectStorage sampleDigest freshFiles [("a/..", [])] := by
  intro h
  have hpath := path_contentKey objectStorage "a/.." [] hexDigest_sampleDigest (by decide +kernel)
  have heq := Except.ok.inj (hpath.symm.trans (h.placed _ (List.mem_singleton_self _)))
  exact absurd (congrArg List.length heq) (by decide +kernel)

end BankingAi
