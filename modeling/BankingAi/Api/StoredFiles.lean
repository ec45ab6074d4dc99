import BankingAi.Api.Ledger
import BankingAi.Api.Search

/-!
# The files behind the documents

Object storage is no part of the transactions: the file of an upload that fails stays. What fails is the
database; a file whose name fits is written. Since a file lies in the directory of the digest of its
bytes, no later upload, failed or not, puts other bytes under the key of a committed document than ones
with its digest.
-/

namespace BankingAi

open Posix SessionM

variable {V S T σ : Type}

/-! ### One upload and the files -/

/-- Stored files are among `uploads`, each in the directory of its digest. -/
structure Addressed (st : LocalFileStorage) (sha256 : Bytes → String) (uploads : Bytes → Prop) (fs : FileSystem) :
    Prop where
  layout : Layout st fs
  nameMax : 64 ≤ fs.nameMax
  digest : ∀ x y data, fs.node (st.base ++ [x, y]) = some (.file data) → sha256 data = x ∧ uploads data

/-- Files stay files, and so does what they are addressed by. -/
def Preserves (st : LocalFileStorage) (sha256 : Bytes → String) (uploads : Bytes → Prop) (fs fs' : FileSystem) :
    Prop :=
  Addressed st sha256 uploads fs → Addressed st sha256 uploads fs' ∧
    ∀ x y data, fs.node (st.base ++ [x, y]) = some (.file data) →
      ∃ data', fs'.node (st.base ++ [x, y]) = some (.file data')

section put

variable {st : LocalFileStorage} {sha256 : Bytes → String} {uploads : Bytes → Prop} {fs : FileSystem}
  {filename : String} {data : Bytes}

theorem EmptyRoot.addressed (h : EmptyRoot st fs) (hmax : 64 ≤ fs.nameMax) : Addressed st sha256 uploads fs where
  layout := h.layout
  nameMax := hmax
  digest x y data hnode := by
    rw [h.below [x, y] (by simp)] at hnode
    cases hnode

theorem Preserves.rfl' (fs : FileSystem) : Preserves st sha256 uploads fs fs := fun h =>
  ⟨h, fun _ _ data hnode => ⟨data, hnode⟩⟩

theorem Preserves.trans {fs' fs'' : FileSystem} (h : Preserves st sha256 uploads fs fs')
    (h' : Preserves st sha256 uploads fs' fs'') : Preserves st sha256 uploads fs fs'' := fun haddressed => by
  obtain ⟨haddressed', hkept⟩ := h haddressed
  obtain ⟨haddressed'', hkept'⟩ := h' haddressed'
  refine ⟨haddressed'', fun x y data hnode => ?_⟩
  obtain ⟨data', hnode'⟩ := hkept x y data hnode
  exact hkept' x y data' hnode'

theorem safeName_safeName (filename : String) : safeName (safeName filename) = safeName filename := by
  have hpart := isPart_safeName filename
  have hname : (PurePath.ofStr (safeName filename)).name = safeName filename := by
    unfold PurePath.name PurePath.ofStr
    rw [partsOf_eq_singleton hpart]
    rfl
  rw [safeName, hname]
  exact if_neg hpart.nonempty

/-- Only the name counts, not the path before it. -/
theorem contentKey_safeName (sha256 : Bytes → String) (filename : String) (data : Bytes) :
    contentKey sha256 (safeName filename) data = contentKey sha256 filename data := by
  rw [contentKey, contentKey, safeName_safeName]

theorem path_of_ok (hsha : HexDigest sha256) {path : List String}
    (h : st.path (contentKey sha256 filename data) = .ok path) :
    path = if safeName filename = ".." then st.base else st.base ++ [sha256 data, safeName filename] := by
  have hclean : Clean (safeName filename) := by
    by_contra hnul
    have hjoin : safeName filename ∈ (st.root.join (contentKey sha256 filename data)).parts := by
      have hparts : (PurePath.ofStr (contentKey sha256 filename data)).parts = [sha256 data, safeName filename] :=
        partsOf_join hsha.isPart (isPart_safeName filename)
      unfold PurePath.join PurePath.absolute
      dsimp only
      rw [contentKey_relative hsha, hparts]
      simp
    rw [LocalFileStorage.path, PurePath.resolve?, if_neg fun hall => hnul (hall _ hjoin)] at h
    cases h
  have hpath := path_contentKey st (safeName filename) data hsha fun part hpart => by
    rw [partsOf_eq_singleton (isPart_safeName filename), List.mem_singleton] at hpart
    rwa [hpart]
  rw [contentKey_safeName, safeName_safeName, h] at hpath
  exact Except.ok.inj hpath

/-- What putting an object does to the files. -/
inductive Puts (st : LocalFileStorage) (fs : FileSystem) (x y : String) (data : Bytes) :
    Except LocalFileStorage.Failure String × FileSystem → Prop
  | kept (e : LocalFileStorage.Failure) : Puts st fs x y data (.error e, fs)
  | made {fs' : FileSystem} (e : LocalFileStorage.Failure) (hmax : fs'.nameMax = fs.nameMax)
      (hnode : ∀ q, fs'.node q = if q = st.base ++ [x] then some .dir else fs.node q) :
      Puts st fs x y data (.error e, fs')
  | stored {fs' : FileSystem} {key : String} (hpath : st.path key = .ok (st.base ++ [x, y]))
      (hmax : fs'.nameMax = fs.nameMax)
      (hnode : ∀ q, fs'.node q = if q = st.base ++ [x, y] then some (.file data)
        else if q = st.base ++ [x] then some .dir else fs.node q) :
      Puts st fs x y data (.ok key, fs')

/-- Any name is stored, or refused with no more than an empty directory made. -/
theorem put_contentKey (hsha : HexDigest sha256) (h : Layout st fs) (hmax : 64 ≤ fs.nameMax) :
    Puts st fs (sha256 data) (safeName filename) data (st.put fs (contentKey sha256 filename data) data) := by
  unfold LocalFileStorage.put
  cases hpath : st.path (contentKey sha256 filename data) with
  | error e => exact .kept _
  | ok path =>
    have hresolved := path_of_ok hsha hpath
    by_cases hdots : safeName filename = ".."
    · -- the key of `..` is resolved to the root, which is no file
      rw [if_pos hdots] at hresolved
      have hroot : fs.mkdir path.dropLast = (none, fs) :=
        FileSystem.mkdirAll_of_dirs fun q hq =>
          h.root q (((List.mem_inits q _).1 hq).trans (hresolved ▸ List.dropLast_prefix _))
      have hwrite : fs.writeBytes path data = .error .isADirectory := by
        rw [FileSystem.writeBytes, h.root path (hresolved ▸ List.prefix_refl _)]
      dsimp only
      rw [hroot]
      dsimp only
      rw [hwrite]
      exact .kept _
    · rw [if_neg hdots] at hresolved
      have hdrop : path.dropLast = st.base ++ [sha256 data] := by
        rw [hresolved, show st.base ++ [sha256 data, safeName filename] =
          (st.base ++ [sha256 data]) ++ [safeName filename] by simp, List.dropLast_concat]
      obtain ⟨fs₁, hmkdir, hmax₁, hnode₁⟩ := mkdir_digest h (x := sha256 data) (by rw [hsha.size]; exact hmax)
      dsimp only
      rw [hdrop, hmkdir]
      dsimp only
      cases hwrite : fs₁.writeBytes path data with
      | error e => exact .made _ hmax₁ hnode₁
      | ok fs₂ =>
        obtain rfl := FileSystem.writeBytes_eq_ok hwrite
        refine .stored (hpath.trans (congrArg _ hresolved)) hmax₁ fun q => ?_
        rw [FileSystem.node_set, hnode₁, hresolved]

theorem LocalFileStorage.key_of_put {key key' : String} {fs' : FileSystem}
    (h : st.put fs key data = (.ok key', fs')) : key' = key := by
  unfold LocalFileStorage.put at h
  split at h
  · cases h
  · split at h
    · cases h
    · split at h
      · cases h
      · exact (Except.ok.inj (congrArg Prod.fst h)).symm

theorem Layout.made (h : Layout st fs) {fs' : FileSystem} {x : String}
    (hnode : ∀ q, fs'.node q = if q = st.base ++ [x] then some .dir else fs.node q) : Layout st fs' where
  root q hq := by
    rw [hnode, if_neg (not_prefix_base (by simp) hq)]
    exact h.root q hq
  level₁ x' d := by
    rw [hnode]
    split
    · nofun
    · exact h.level₁ x' d
  level₂ x' y' := by
    rw [hnode, if_neg (by simp)]
    exact h.level₂ x' y'

theorem preserves_put (hsha : HexDigest sha256) (hdata : uploads data) :
    Preserves st sha256 uploads fs (st.put fs (contentKey sha256 filename data) data).2 := by
  intro h
  have hputs : Puts st fs (sha256 data) (safeName filename) data _ := put_contentKey hsha h.layout h.nameMax
  revert hputs
  generalize st.put fs (contentKey sha256 filename data) data = r
  intro hputs
  cases hputs with
  | kept e => exact Preserves.rfl' fs h
  | @made fs' e hmax hnode =>
    have hfile : ∀ x y, fs'.node (st.base ++ [x, y]) = fs.node (st.base ++ [x, y]) := fun x y => by
      rw [hnode, if_neg (by simp)]
    refine ⟨⟨h.layout.made hnode, hmax ▸ h.nameMax, fun x y d hd => ?_⟩, fun x y d hd => ⟨d, ?_⟩⟩
    · exact h.digest x y d (hfile x y ▸ hd)
    · rw [hfile, hd]
  | @stored fs' key hpath hmax hnode =>
    have hfile : ∀ x y, fs'.node (st.base ++ [x, y]) =
        if x = sha256 data ∧ y = safeName filename then some (.file data) else fs.node (st.base ++ [x, y]) := by
      intro x y
      rw [hnode]
      simp only [List.append_cancel_left_eq, List.cons.injEq, and_true]
      split
      · rfl
      · rw [if_neg (by simp)]
    refine ⟨⟨h.layout.stored hnode, hmax ▸ h.nameMax, fun x y d hd => ?_⟩, fun x y d hd => ?_⟩
    · rw [hfile] at hd
      split at hd
      case isTrue heq =>
        cases hd
        exact ⟨heq.1.symm, hdata⟩
      case isFalse => exact h.digest x y d hd
    · rw [hfile]
      split
      · exact ⟨data, rfl⟩
      · exact ⟨d, hd⟩

end put
/-! ### One request -/

/-- What an upload sends. -/
def HttpRequest.uploaded? (req : HttpRequest) : Option Bytes :=
  match req.operation with
  | .workflow .. => none
  | .upload _ _ _ data _ => some data

def LibraryWorld.Preserves (svc : DocumentService V S) (uploads : Bytes → Prop) (w w' : LibraryWorld V) : Prop :=
  BankingAi.Preserves svc.storage svc.sha256 uploads w.files w'.files

instance (svc : DocumentService V S) (uploads : Bytes → Prop) :
    Std.Refl (LibraryWorld.Preserves svc uploads) := ⟨fun w => .rfl' w.files⟩

instance (svc : DocumentService V S) (uploads : Bytes → Prop) :
    IsTrans (LibraryWorld V) (LibraryWorld.Preserves svc uploads) := ⟨fun _ _ _ h h' => h.trans h'⟩

/-- A document and the bytes it was made from: its row, its chunks, and a file where its key leads. -/
structure DocumentService.Archives (svc : DocumentService V S) (uploads : Bytes → Prop) (s : LibraryState V)
    (d : Document) (original : Bytes) : Prop where
  uploaded : uploads original
  storageKey : d.storageKey = contentKey svc.sha256 d.filename original
  path : svc.storage.path d.storageKey = .ok (svc.storage.base ++ [svc.sha256 original, safeName d.filename])
  file : ∃ data, s.world.files.node (svc.storage.base ++ [svc.sha256 original, safeName d.filename]) =
    some (.file data)
  digest : d.sha256 = some (svc.sha256 original)
  size : d.sizeBytes = original.length
  text : (s.db.chunksOf d.id).map DocumentChunk.content = chunksOfText (decodeText original d.contentType)

/-- Every document has its file. -/
structure LibraryState.Archived (svc : DocumentService V S) (uploads : Bytes → Prop) (s : LibraryState V) : Prop where
  addressed : Addressed svc.storage svc.sha256 uploads s.world.files
  documents : ∀ d ∈ s.db.documents, ∃ original, svc.Archives uploads s d original

section step

variable {p : Platform V T σ} {svc : DocumentService V S} {uploads : Bytes → Prop} {s s' : LibraryState V}
  {req : HttpRequest} {F : Faults Exn} {user : Uuid} {result : WorkflowView ⊕ Document}

theorem preserves_next (hsha : HexDigest svc.sha256) (i : HttpRequest × Faults Exn)
    (hdata : ∀ data ∈ i.1.uploaded?, uploads data) :
    s.world.Preserves svc uploads (serveStep p svc s i).2.world := by
  obtain ⟨req, F⟩ := i
  cases hop : req.operation with
  | workflow claims call =>
    rw [HttpRequest.next_workflow hop]
    exact .rfl' s.world.files
  | upload claims filename contentType data kind =>
    have hmem : uploads data := hdata data (by rw [HttpRequest.uploaded?, hop]; rfl)
    rw [HttpRequest.next_upload hop]
    exact transact_keeps (keeps_upload svc _ (.effect fun w => preserves_put hsha hmem)
      (fun w _ => .rfl' w.files) fun _ _ t => .rfl' t.world.files)

theorem DocumentService.Archives.step {d : Document} {original : Bytes} (h : svc.Archives uploads s d original)
    (haddressed : Addressed svc.storage svc.sha256 uploads s.world.files)
    (hfiles : s.world.Preserves svc uploads s'.world)
    (hchunks : s'.db.chunksOf d.id = s.db.chunksOf d.id) : svc.Archives uploads s' d original :=
  { h with
    file := by
      obtain ⟨data, hdata⟩ := h.file
      exact (hfiles haddressed).2 _ _ data hdata
    text := by rw [hchunks]; exact h.text }

theorem archives_committedRow (hsha : HexDigest svc.sha256) (hsound : s.Sound p svc)
    (haddressed : Addressed svc.storage svc.sha256 uploads s.world.files) {r : UploadRequest} (hdata : uploads r.data)
    {files : FileSystem} {key : String} {world : LibraryWorld V}
    (hput : svc.storage.put s.world.files (uploadKey svc r) r.data = (.ok key, files)) (hfiles : world.files = files) :
    svc.Archives uploads ⟨uploadDb svc r user s.world.nextUuid s.db, world⟩
      (committedRow svc r user s.world.nextUuid) r.data := by
  set filename := orDefault r.filename "upload.bin"
  have hputs : Puts svc.storage s.world.files (svc.sha256 r.data) (safeName filename) r.data
      (svc.storage.put s.world.files (uploadKey svc r) r.data) :=
    put_contentKey hsha haddressed.layout haddressed.nameMax
  rw [hput] at hputs
  obtain ⟨hpath, hnode⟩ : svc.storage.path key = .ok (svc.storage.base ++ [svc.sha256 r.data, safeName filename]) ∧
      files.node (svc.storage.base ++ [svc.sha256 r.data, safeName filename]) = some (.file r.data) := by
    cases hputs with
    | stored hpath hmax hnode => exact ⟨hpath, by rw [hnode, if_pos rfl]⟩
  obtain rfl : key = uploadKey svc r := LocalFileStorage.key_of_put hput
  have hold : s.db.chunksOf ⟨s.world.nextUuid⟩ = [] := by
    refine List.filter_eq_nil_iff.2 fun c hc hid => ?_
    obtain ⟨d, hd, hdc⟩ := hsound.chunks c hc
    exact hsound.documentsDrawn.ne (k := ⟨s.world.nextUuid⟩) le_rfl hd (hdc.trans (of_decide_eq_true hid))
  exact
    { uploaded := hdata
      storageKey := rfl
      path := hpath
      file := ⟨r.data, by rw [hfiles]; exact hnode⟩
      digest := congrArg some (keyDigest_contentKey hsha filename r.data)
      size := rfl
      text := by
        show ((uploadDb svc r user s.world.nextUuid s.db).chunksOf ⟨s.world.nextUuid⟩).map _ = _
        rw [chunksOf_uploadDb, hold, if_pos rfl, List.nil_append, map_content_chunkRows]
        rfl }

theorem LibraryState.Archived.commit (hsha : HexDigest svc.sha256) (hsound : s.Sound p svc) (h : s.Archived svc uploads)
    (hdata : ∀ data ∈ req.uploaded?, uploads data) (hcommits : req.Commits p svc s user result s')
    (hfiles : s.world.Preserves svc uploads s'.world) : s'.Archived svc uploads := by
  refine ⟨(hfiles h.addressed).1, ?_⟩
  cases hcommits with
  | start | decide =>
    intro d hd
    obtain ⟨original, ho⟩ := h.documents d hd
    exact ⟨original, ho.step h.addressed hfiles rfl⟩
  | @upload r files hop hid hput =>
    obtain ⟨key, hput⟩ := hput
    intro d hd
    have hmem : uploads r.data := hdata r.data (by rw [HttpRequest.uploaded?, hop]; rfl)
    rw [hsound.documents_uploadDb] at hd
    rcases List.mem_append.1 hd with hd | hd
    · obtain ⟨original, ho⟩ := h.documents d hd
      refine ⟨original, ho.step h.addressed hfiles ?_⟩
      show (uploadDb svc r user s.world.nextUuid s.db).chunksOf d.id = _
      rw [chunksOf_uploadDb, if_neg (hsound.documentsDrawn.ne (k := ⟨s.world.nextUuid⟩) le_rfl hd), List.append_nil]
    · rw [List.mem_singleton.1 hd]
      exact ⟨r.data, archives_committedRow hsha hsound h.addressed hmem hput rfl⟩

theorem LibraryState.Archived.step (hsha : HexDigest svc.sha256) (hsound : s.Sound p svc) (h : s.Archived svc uploads)
    (i : HttpRequest × Faults Exn) (hdata : ∀ data ∈ i.1.uploaded?, uploads data) :
    (serveStep p svc s i).2.Archived svc uploads := by
  have hfiles : s.world.Preserves svc uploads (serveStep p svc s i).2.world := preserves_next hsha i hdata
  rcases HttpRequest.step_cases p svc hsound.consistent.drawn i with ⟨e, -, hdb⟩ | ⟨user, result, -, -, hcommits⟩
  · refine ⟨(hfiles h.addressed).1, fun d hd => ?_⟩
    obtain ⟨original, ho⟩ := h.documents d (hdb ▸ hd)
    exact ⟨original, ho.step h.addressed hfiles (by rw [hdb])⟩
  · exact h.commit hsha hsound hdata hcommits hfiles

end step

/-! ### Runs -/

/-- What the uploads of a run send. -/
def uploadedBytes (is : List (HttpRequest × Faults Exn)) : List Bytes := is.filterMap fun i => i.1.uploaded?

/-- After any run of the API, whatever round trips to the database failed on the way, the key of every committed document leads to
bytes that an upload sent, with the digest that the row tells and the key made from them. If the uploads
do not collide they are those of the document: as many as the row says, and the chunks of the document
are those of their text. -/
theorem documents_stored (p : Platform V S σ) (svc : DocumentService V S) (hsha : HexDigest svc.sha256)
    (files : FileSystem) (hroot : EmptyRoot svc.storage files) (hmax : 64 ≤ files.nameMax)
    (is : List (HttpRequest × Faults Exn)) :
    let s := (requestMachine p svc).run (.start files) is
    ∀ d ∈ s.db.documents, ∃ data ∈ uploadedBytes is, svc.storage.get s.world.files d.storageKey = .ok data ∧
      d.sha256 = some (svc.sha256 data) ∧ d.storageKey = contentKey svc.sha256 d.filename data ∧
        ((∀ a ∈ uploadedBytes is, ∀ b ∈ uploadedBytes is, svc.sha256 a = svc.sha256 b → a = b) →
          d.sizeBytes = data.length ∧
            (s.db.chunksOf d.id).map DocumentChunk.content = chunksOfText (decodeText data d.contentType)) := by
  intro s d hd
  have harchived : s.Archived svc (· ∈ uploadedBytes is) := by
    refine (Machine.run_invariant_of
      (I := fun s : LibraryState V => s.Sound p svc ∧ s.Archived svc (· ∈ uploadedBytes is))
      (G := fun _ i => ∀ data ∈ i.1.uploaded?, data ∈ uploadedBytes is) (fun s i hdata h => ?_) ?_ fun t ht => ?_).2
    · exact ⟨h.1.step i, h.2.step hsha (h.1.platform (p.over svc s.world.vectors)) i hdata⟩
    · exact ⟨.start_files p svc files, hroot.addressed hmax, fun _ h => absurd h List.not_mem_nil⟩
    · obtain ⟨js, i, hpre, rfl⟩ := Machine.mem_trace ht
      intro data hdata
      exact List.mem_filterMap.2 ⟨i, hpre.subset (by simp), hdata⟩
  obtain ⟨original, ho⟩ := harchived.documents d hd
  obtain ⟨data, hnode⟩ := ho.file
  obtain ⟨hdigest, hdata⟩ := harchived.addressed.digest _ _ _ hnode
  refine ⟨data, hdata, ?_, by rw [ho.digest, hdigest], ?_, fun hcol => ?_⟩
  · unfold LocalFileStorage.get
    rw [ho.path]
    dsimp only
    rw [FileSystem.readBytes, hnode]
  · rw [ho.storageKey, contentKey, contentKey, hdigest]
  · obtain rfl : data = original := hcol _ hdata _ ho.uploaded hdigest
    exact ⟨ho.size, ho.text⟩

theorem documents_stored_one_word :
    let s := (requestMachine plainPlatform countingService).run (.start freshFiles) [(oneWordRequest, .none)]
    ∀ d ∈ s.db.documents, ∃ data, objectStorage.get s.world.files d.storageKey = .ok data ∧
      d.sizeBytes = data.length := by
  intro s d hd
  obtain ⟨data, -, hget, -, -, hsame⟩ := documents_stored plainPlatform countingService hexDigest_sampleDigest freshFiles
    emptyRoot_freshFiles (by decide) [(oneWordRequest, .none)] d hd
  refine ⟨data, hget, (hsame fun a ha b hb _ => ?_).1⟩
  have hone : uploadedBytes [(oneWordRequest, .none)] = [oneWord.data] := rfl
  rw [hone, List.mem_singleton] at ha hb
  rw [ha, hb]

end BankingAi
