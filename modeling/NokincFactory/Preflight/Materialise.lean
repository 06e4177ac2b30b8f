/-
  File:      NokincFactory/Preflight/Materialise.lean
  Subject:   An accepted raw worktree, written into an empty folder and read back.

  The folder is empty before, and nobody else writes into it.

  * `mem_ancestors`: the folders above a path, as the model asks for them;
  * `target_eq`: an accepted path stays below the folder, part by part;
  * `separate_entries`: no accepted file is needed as a folder, and none is written twice;
  * `EmptyView`, `readBack`: the folder before, and what is read of it afterwards;
  * `raw_materialised`: the files are read back as they were.
-/
import NokincFactory.Adapters.GitCaptureView
import NokincFactory.Preflight.Binding

namespace NokincFactory

namespace Preflight

open FileTree

/-! ## 1. Paths and parts -/

/-- A folder above a path is one of the paths that the model asks for. -/
theorem mem_ancestors {path folder : PyStr} (h : Above (splitAt '/' folder) (splitAt '/' path)) :
    folder ∈ ancestors path := by
  obtain ⟨rest, hrest⟩ := h.1
  have hpos := List.length_pos_iff.mpr (splitAt_ne_nil '/' folder)
  have hrestne : rest ≠ [] := by
    rintro rfl
    exact h.2 (by rw [← hrest, List.append_nil])
  have hrestpos := List.length_pos_iff.mpr hrestne
  have hlength := congrArg List.length hrest
  rw [List.length_append] at hlength
  refine List.mem_map.mpr ⟨(splitAt '/' folder).length, List.mem_range'_1.mpr ⟨hpos, by omega⟩, ?_⟩
  rw [← hrest, List.take_left]
  exact joinParts_splitAt '/' folder

/-! ## 2. Accepted paths -/

/-- What the model checks of the parts of a path. -/
def GoodParts (parts : List PyStr) : Prop := ∀ part ∈ parts, badPart part = false

theorem goodParts_of_valid {path : PyStr} (h : validateCandidatePath path = .ok ()) :
    GoodParts (splitAt '/' path) := by
  intro part hpart
  have hnone := guardThat_ok.mp h
  rw [not_or, not_or] at hnone
  exact Bool.eq_false_iff.mpr fun hbad => hnone.2.2 (List.any_eq_true.mpr ⟨part, hpart, hbad⟩)

theorem good_part {part : PyStr} (h : badPart part = false) :
    part ≠ [] ∧ part ≠ pyStr "." ∧ part ≠ pyStr ".." ∧ part.map foldAscii ≠ pyStr ".git" := by
  simp only [badPart, Bool.or_eq_false_iff, decide_eq_false_iff_not] at h
  exact ⟨h.1.1.1.1, h.1.1.1.2, h.1.1.2, h.1.2⟩

theorem pathParts_eq {path : PyStr} (h : GoodParts (splitAt '/' path)) :
    pathParts path = splitAt '/' path :=
  List.filter_eq_self.mpr fun part hpart =>
    decide_eq_true ⟨(good_part (h part hpart)).1, (good_part (h part hpart)).2.1⟩

/-- An accepted path is not absolute. -/
theorem joinPath_eq {path : PyStr} (h : GoodParts (splitAt '/' path)) (base : List PyStr) :
    joinPath base path = base ++ splitAt '/' path := by
  have hrelative : ¬ path.head?.any (isChar · '/') := by
    intro habsolute
    cases path with
    | nil => cases habsolute
    | cons c cs =>
      have hslash : isChar c '/' := habsolute
      have hfirst : [] ∈ splitAt '/' (c :: cs) := by
        rw [splitAt, if_pos hslash]
        exact List.mem_cons_self
      exact (good_part (h [] hfirst)).1 rfl
  rw [joinPath, if_neg hrelative, pathParts_eq h]

theorem resolve_eq {parts : List PyStr} (h : pyStr ".." ∉ parts) : resolve parts = parts := by
  have hstep : ∀ (rest reached : List PyStr), pyStr ".." ∉ rest →
      rest.foldl (fun reached part =>
        if part = pyStr ".." then reached.dropLast else reached ++ [part]) reached
      = reached ++ rest := by
    intro rest
    induction rest with
    | nil => exact fun reached _ => (List.append_nil reached).symm
    | cons part rest ih =>
      intro reached hrest
      obtain ⟨hne, hrest⟩ := not_or.mp (List.mem_cons.not.mp hrest)
      rw [List.foldl_cons, if_neg fun heq => hne heq.symm, ih _ hrest, List.append_assoc]
      rfl
  exact hstep parts [] h

/-- An accepted file goes below the folder, part by part. -/
theorem target_eq {worktree : List PyStr} (hplain : pyStr ".." ∉ worktree)
    {file : CandidateFile PyStr} (h : GoodParts (splitAt '/' file.path)) :
    file.target worktree = worktree ++ splitAt '/' file.path := by
  have hnone : pyStr ".." ∉ worktree ++ splitAt '/' file.path := by
    intro hmem
    rcases List.mem_append.mp hmem with hmem | hmem
    · exact hplain hmem
    · exact (good_part (h _ hmem)).2.2.1 rfl
  rw [CandidateFile.target, joinPath_eq h, resolve_eq hnone]

/-! ## 3. An accepted raw worktree -/

section

variable [Hashlib]

/-- A raw worktree that was validated. -/
structure AcceptedRaw where
  raw : RawWorktree PyStr
  valid : raw.validate = .ok ()

namespace AcceptedRaw

variable (accepted : AcceptedRaw)

theorem file_valid {file : CandidateFile PyStr} (h : file ∈ accepted.raw.files) :
    GoodParts (splitAt '/' file.path) ∧ ∃ content, file.content = some content := by
  have hvalid := accepted.valid
  rw [RawWorktree.validate] at hvalid
  have hfile := List.forM_ok.mp (Except.seq_ok.mp hvalid).1 file h
  rw [CandidateFile.validate] at hfile
  obtain ⟨-, hfile⟩ := Except.seq_ok.mp hfile
  obtain ⟨hpath, hfile⟩ := Except.seq_ok.mp hfile
  obtain ⟨content, hcontent, -⟩ := Except.bind_ok.mp hfile
  refine ⟨goodParts_of_valid hpath, ?_⟩
  rw [decodedContent] at hcontent
  rw [CandidateFile.content]
  cases hdecoded : (encodeAscii file.contentBase64).bind b64decode with
  | none =>
    rw [hdecoded] at hcontent
    cases hcontent
  | some bytes => exact ⟨bytes, rfl⟩

theorem executable_mem {path : PyStr} (h : path ∈ accepted.raw.executablePaths) :
    ∃ file ∈ accepted.raw.files, file.path = path := by
  have hvalid := accepted.valid
  rw [RawWorktree.validate] at hvalid
  obtain ⟨-, hvalid⟩ := Except.seq_ok.mp hvalid
  obtain ⟨-, hvalid⟩ := Except.seq_ok.mp hvalid
  have hinventory := guardThat_ok.mp (Except.seq_ok.mp hvalid).1
  exact List.mem_map.mp (hinventory.2 path h)

theorem not_above {file other : CandidateFile PyStr} (hfile : file ∈ accepted.raw.files)
    (hother : other ∈ accepted.raw.files) :
    ¬ Above (splitAt '/' file.path) (splitAt '/' other.path) := by
  have hvalid := accepted.valid
  rw [RawWorktree.validate] at hvalid
  obtain ⟨-, hvalid⟩ := Except.seq_ok.mp hvalid
  obtain ⟨-, hvalid⟩ := Except.seq_ok.mp hvalid
  obtain ⟨-, hvalid⟩ := Except.seq_ok.mp hvalid
  have hancestors := guardThat_ok.mp (Except.seq_ok.mp hvalid).1
  intro habove
  exact hancestors other.path (List.mem_map_of_mem hother) file.path (mem_ancestors habove)
    (List.mem_map_of_mem hfile)

theorem paths_nodup : (accepted.raw.files.map CandidateFile.path).Nodup :=
  (raw_paths accepted.valid).pairwise.2

end AcceptedRaw

/-! ## 4. Before and after -/

/-- An empty folder, and what stands around it. -/
structure EmptyView where
  worktree : List PyStr
  tree : Files
  plain : pyStr ".." ∉ worktree
  folders : ∀ p, p <+: worktree → tree p = some .folder
  empty : ∀ p, Above worktree p → tree p = none

/-- The files below a folder: the path, the bytes, and whether the file is executable. -/
def readBack (tree : Files) (worktree : List PyStr) : Set (PyStr × List Byte × Bool) :=
  {found | ∃ parts, parts ≠ [] ∧ joinParts '/' parts = found.1 ∧
    tree (worktree ++ parts) = some (.file found.2.1 found.2.2)}

/-- The files of a raw worktree. -/
def recorded (raw : RawWorktree PyStr) : Set (PyStr × List Byte × Bool) :=
  {found | ∃ file ∈ raw.files, file.path = found.1 ∧ file.content = some found.2.1 ∧
    decide (file.path ∈ raw.executablePaths) = found.2.2}

/-- No name of a path is `.git`. -/
def NoGit (parts : List PyStr) : Prop := ∀ part ∈ parts, part.map foldAscii ≠ pyStr ".git"

/-- A file of a raw worktree, as it is placed. -/
def entry (worktree : List PyStr) (raw : RawWorktree PyStr) (file : CandidateFile PyStr) :
    FileTree.Entry PyStr (List Byte) where
  path := file.target worktree
  content := file.content.getD []
  executable := file.path ∈ raw.executablePaths

omit [Hashlib] in
/-- Writing files whose contents decode is placing them. -/
theorem foldlM_populateFile {worktree : List PyStr} {raw : RawWorktree PyStr}
    {files : List (CandidateFile PyStr)}
    (h : ∀ file ∈ files, ∃ content, file.content = some content) (tree : Files) :
    files.foldlM (populateFile worktree raw) tree =
      Except.liftWith .os (tree.placeAll (files.map (entry worktree raw))) := by
  induction files generalizing tree with
  | nil => rfl
  | cons file files ih =>
    obtain ⟨content, hcontent⟩ := h file List.mem_cons_self
    have hplace : populateFile worktree raw tree file =
        Except.liftWith .os (tree.place (entry worktree raw file)) := by
      rw [populateFile, hcontent, place, Except.liftWith_bind]
      refine congrArg _ (funext fun made => ?_)
      rw [Except.liftWith_bind, entry, hcontent]
      rfl
    rw [List.foldlM_cons, hplace, List.map_cons, placeAll, List.foldlM_cons, Except.liftWith_bind]
    exact congrArg _ (funext (ih fun f hf => h f (List.mem_cons_of_mem file hf)))

/-! ## 5. Into an empty folder -/

namespace AcceptedRaw

variable (accepted : AcceptedRaw) (view : EmptyView)

theorem target {file : CandidateFile PyStr} (h : file ∈ accepted.raw.files) :
    file.target view.worktree = view.worktree ++ splitAt '/' file.path :=
  target_eq view.plain (accepted.file_valid h).1

/-- A file goes below the folder, and never into `.git`. -/
theorem below {file : CandidateFile PyStr} (h : file ∈ accepted.raw.files) :
    ∃ parts, parts ≠ [] ∧ NoGit parts ∧ file.target view.worktree = view.worktree ++ parts :=
  ⟨splitAt '/' file.path, splitAt_ne_nil '/' file.path,
    fun part hpart => (good_part ((accepted.file_valid h).1 part hpart)).2.2.2,
    accepted.target view h⟩

/-- The path of a file is no part of the path of another. -/
theorem not_prefix {file other : CandidateFile PyStr} (hfile : file ∈ accepted.raw.files)
    (hother : other ∈ accepted.raw.files) (hne : file.path ≠ other.path) :
    ¬ file.target view.worktree <+: other.target view.worktree := by
  intro hfront
  rw [accepted.target view hfile, accepted.target view hother,
    List.prefix_append_right_inj] at hfront
  exact accepted.not_above hfile hother ⟨hfront, fun heq => hne (splitAt_injective '/' heq)⟩

/-- No file is needed as a folder, and none is written twice. -/
theorem separate_entries : Separate (accepted.raw.files.map (entry view.worktree accepted.raw)) := by
  have hpaths : accepted.raw.files.Pairwise fun file other => file.path ≠ other.path :=
    List.pairwise_map.mp accepted.paths_nodup
  refine List.pairwise_map.mpr (hpaths.imp_of_mem fun hfile hother hne => ⟨?_, ?_⟩)
  · exact accepted.not_prefix view hfile hother hne
  · exact accepted.not_prefix view hother hfile hne.symm

theorem free_entry {file : CandidateFile PyStr} (h : file ∈ accepted.raw.files) :
    Free view.tree (file.target view.worktree) := by
  obtain ⟨parts, hparts, -, htarget⟩ := accepted.below view h
  have habove : Above view.worktree (view.worktree ++ parts) :=
    ⟨List.prefix_append _ _, fun heq => hparts (List.self_eq_append_right.mp heq)⟩
  rw [htarget]
  refine ⟨List.append_ne_nil_of_right_ne_nil _ hparts, fun p hp => ?_, view.empty _ habove⟩
  rcases List.prefix_or_prefix_of_prefix hp.1 habove.1 with hbefore | hafter
  · exact .inr (view.folders p hbefore)
  · by_cases heq : view.worktree = p
    · exact .inr (view.folders p (heq ▸ List.prefix_refl _))
    · exact .inl (view.empty p ⟨hafter, heq⟩)

/-- The files are placed. -/
theorem populate_ok :
    ∃ tree', populate view.worktree accepted.raw view.tree = .ok tree' ∧
      Placed view.tree tree' (accepted.raw.files.map (entry view.worktree accepted.raw)) := by
  have hcontents : ∀ file ∈ accepted.raw.files, ∃ content, file.content = some content :=
    fun file hfile => (accepted.file_valid hfile).2
  have hfree : ∀ placed ∈ accepted.raw.files.map (entry view.worktree accepted.raw),
      Free view.tree placed.path := by
    intro placed hplaced
    obtain ⟨file, hfile, rfl⟩ := List.mem_map.mp hplaced
    exact accepted.free_entry view hfile
  obtain ⟨tree', hrun, hplaced⟩ := placeAll_ok (accepted.separate_entries view) hfree
  refine ⟨tree', ?_, hplaced⟩
  rw [populate, foldlM_populateFile hcontents, hrun]
  rfl

/-- What was not there before is on the way to a file. -/
theorem changed {tree' : Files} {p : List PyStr} (hchanged : tree' p ≠ view.tree p)
    (h : Placed view.tree tree' (accepted.raw.files.map (entry view.worktree accepted.raw))) :
    ∃ file ∈ accepted.raw.files, ∃ parts, parts ≠ [] ∧ p = view.worktree ++ parts ∧
      parts <+: splitAt '/' file.path := by
  have hsome : ∃ file ∈ accepted.raw.files, p <+: file.target view.worktree := by
    by_contra hnone
    refine hchanged (h.others p fun placed hplaced => ?_)
    obtain ⟨file, hfile, rfl⟩ := List.mem_map.mp hplaced
    exact fun hfront => hnone ⟨file, hfile, hfront⟩
  obtain ⟨file, hfile, hfront⟩ := hsome
  have htarget := accepted.target view hfile
  rw [htarget] at hfront
  have hfolder : ¬ p <+: view.worktree := by
    intro hbefore
    refine hchanged ?_
    rw [view.folders p hbefore]
    refine h.folders _ (List.mem_map_of_mem hfile) p ⟨hbefore.trans ?_, ?_⟩
    · show view.worktree <+: file.target view.worktree
      rw [htarget]
      exact List.prefix_append _ _
    · intro heq
      have heq : p = view.worktree ++ splitAt '/' file.path := heq.trans htarget
      have hlength := hbefore.length_le
      have hpos := List.length_pos_iff.mpr (splitAt_ne_nil '/' file.path)
      rw [heq, List.length_append] at hlength
      omega
  rcases List.prefix_or_prefix_of_prefix hfront (List.prefix_append view.worktree _) with
    hbefore | ⟨parts, rfl⟩
  · exact absurd hbefore hfolder
  · refine ⟨file, hfile, parts, ?_, rfl, (List.prefix_append_right_inj _).mp hfront⟩
    rintro rfl
    exact hfolder (by rw [List.append_nil])

/-- What is read back is what was recorded. -/
theorem readBack_eq {tree' : Files}
    (h : Placed view.tree tree' (accepted.raw.files.map (entry view.worktree accepted.raw))) :
    readBack tree' view.worktree = recorded accepted.raw := by
  have hfile : ∀ file ∈ accepted.raw.files, tree' (view.worktree ++ splitAt '/' file.path) =
      some (.file (file.content.getD []) (decide (file.path ∈ accepted.raw.executablePaths))) := by
    intro file hfile
    rw [← accepted.target view hfile]
    exact h.files _ (List.mem_map_of_mem hfile)
  refine Set.ext fun found => ⟨?_, ?_⟩
  · rintro ⟨parts, hparts, hpath, hfound⟩
    have hempty : view.tree (view.worktree ++ parts) = none :=
      view.empty _ ⟨List.prefix_append _ _, fun heq => hparts (List.self_eq_append_right.mp heq)⟩
    have hchanged : tree' (view.worktree ++ parts) ≠ view.tree (view.worktree ++ parts) := by
      rw [hfound, hempty]
      exact nofun
    obtain ⟨file, hmem, parts', -, heq, hfront⟩ := accepted.changed view hchanged h
    obtain rfl := List.append_cancel_left heq
    have hwhole : parts = splitAt '/' file.path := by
      by_contra hne
      have hfolder := h.folders _ (List.mem_map_of_mem hmem) (view.worktree ++ parts) ⟨?_, ?_⟩
      · rw [hfound] at hfolder
        cases hfolder
      · show _ <+: file.target view.worktree
        rw [accepted.target view hmem]
        exact (List.prefix_append_right_inj _).mpr hfront
      · show _ ≠ file.target view.worktree
        rw [accepted.target view hmem]
        exact fun hsame => hne (List.append_cancel_left hsame)
    obtain ⟨content, hcontent⟩ := (accepted.file_valid hmem).2
    have hnode := hfile file hmem
    rw [← hwhole, hfound, hcontent] at hnode
    injection hnode with hnode
    injection hnode with hbytes hmode
    refine ⟨file, hmem, ?_, ?_, hmode.symm⟩
    · rw [← hpath, hwhole, joinParts_splitAt]
    · rw [hcontent, hbytes]
      rfl
  · rintro ⟨file, hmem, hpath, hcontent, hmode⟩
    refine ⟨splitAt '/' file.path, splitAt_ne_nil _ _, ?_, ?_⟩
    · rw [joinParts_splitAt, hpath]
    · rw [hfile file hmem, hcontent, ← hmode]
      rfl

end AcceptedRaw

/-- An accepted raw worktree is written into an empty folder without a conflict, below that folder
and outside any `.git`; and it is read back as it was. -/
theorem raw_materialised (accepted : AcceptedRaw) (view : EmptyView) :
    accepted.raw.files.Pairwise (fun file other =>
      ¬ file.target view.worktree <+: other.target view.worktree ∧
        ¬ other.target view.worktree <+: file.target view.worktree) ∧
    ∃ tree', populate view.worktree accepted.raw view.tree = .ok tree' ∧
      (∀ p, tree' p ≠ view.tree p →
        ∃ parts, parts ≠ [] ∧ NoGit parts ∧ p = view.worktree ++ parts) ∧
      readBack tree' view.worktree = recorded accepted.raw ∧
      (∀ path, (∃ content executable, (path, content, executable) ∈ readBack tree' view.worktree) ↔
        path ∈ accepted.raw.paths) ∧
      ∀ path, (∃ content, (path, content, true) ∈ readBack tree' view.worktree) ↔
        path ∈ accepted.raw.executablePaths := by
  obtain ⟨tree', hrun, hplaced⟩ := accepted.populate_ok view
  have hread := accepted.readBack_eq view hplaced
  refine ⟨List.pairwise_map.mp (accepted.separate_entries view), tree', hrun, fun p hp => ?_, hread,
    fun path => ?_, fun path => ?_⟩
  · obtain ⟨file, hfile, parts, hparts, heq, hfront⟩ := accepted.changed view hp hplaced
    refine ⟨parts, hparts, fun part hpart => ?_, heq⟩
    exact (good_part ((accepted.file_valid hfile).1 part (hfront.subset hpart))).2.2.2
  · rw [hread]
    constructor
    · rintro ⟨content, executable, file, hfile, hpath, -, -⟩
      exact List.mem_map.mpr ⟨file, hfile, hpath⟩
    · intro hpath
      obtain ⟨file, hfile, rfl⟩ := List.mem_map.mp hpath
      obtain ⟨content, hcontent⟩ := (accepted.file_valid hfile).2
      exact ⟨content, _, file, hfile, rfl, hcontent, rfl⟩
  · rw [hread]
    constructor
    · rintro ⟨content, file, hfile, hpath, -, hmode⟩
      rw [← show file.path = path from hpath]
      exact of_decide_eq_true hmode
    · intro hpath
      obtain ⟨file, hfile, rfl⟩ := accepted.executable_mem hpath
      obtain ⟨content, hcontent⟩ := (accepted.file_valid hfile).2
      exact ⟨content, file, hfile, rfl, hcontent, decide_eq_true hpath⟩

namespace MaterialiseFixture

/-- A file that holds one byte. -/
def oneByte (path : PyStr) : CandidateFile PyStr :=
  ⟨path, pyStr "AQ==", Hashlib.sha256 [1], false⟩

theorem oneByte_valid {path : PyStr} (hpath : encodable path ∧ path ≠ [])
    (h : validateCandidatePath path = .ok ()) : (oneByte path).validate = .ok () := by
  have hdecoded : (encodeAscii (pyStr "AQ==")).bind b64decode = some [1] := by decide
  have hcanonical : pyText (b64encode [1]) = pyStr "AQ==" := by decide
  have hcontent : decodedContent (pyStr "AQ==") (Hashlib.sha256 [1]) = .ok [1] := by
    rw [decodedContent, hdecoded]
    exact Except.seq_ok.mpr ⟨guardThat_pass ⟨hcanonical, rfl⟩, rfl⟩
  rw [CandidateFile.validate]
  refine Except.seq_ok.mpr ⟨guardThat_pass hpath, Except.seq_ok.mpr ⟨h, ?_⟩⟩
  exact Except.bind_ok.mpr ⟨[1], hcontent, guardThat_pass rfl⟩

/-- A file in a folder, which is executable, and a file beside the folder. -/
def draftRaw (digest : Digest) : RawWorktree PyStr where
  files := [oneByte (pyStr "bin/run"), oneByte (pyStr "readme")]
  missingPaths := []
  executablePaths := [pyStr "bin/run"]
  gitInputsDigest := ⟨0⟩
  contentDigest := digest

def pair : AcceptedRaw where
  raw := draftRaw (Sha256.digest (PyValue.record (draftRaw ⟨0⟩).fields).dumps)
  valid := by
    have hpaths : validateCandidatePath (pyStr "bin/run") = .ok () ∧
        validateCandidatePath (pyStr "readme") = .ok () := by decide
    have hfiles : ∀ file ∈ (draftRaw ⟨0⟩).files, file.validate = .ok () := by
      intro file hfile
      rcases List.mem_pair.mp hfile with rfl | rfl
      · exact oneByte_valid (by decide) hpaths.1
      · exact oneByte_valid (by decide) hpaths.2
    have hinventory : [[pyStr "bin/run", pyStr "readme"], [], [pyStr "bin/run"]].forM
        (fun paths => do
          guardThat (SortedUnique paths) "Raw paths must be sorted and unique"
          paths.forM validateCandidatePath) = Except.ok () := by decide +kernel
    rw [RawWorktree.validate]
    refine Except.seq_ok.mpr ⟨List.forM_ok.mpr hfiles, Except.seq_ok.mpr ⟨hinventory, ?_⟩⟩
    refine Except.seq_ok.mpr ⟨guardThat_pass ⟨fun _ _ => List.not_mem_nil, ?_⟩, ?_⟩
    · exact fun path hpath => List.mem_singleton.mp hpath ▸ List.mem_cons_self
    · refine Except.seq_ok.mpr ⟨guardThat_pass ?_, guardThat_pass rfl⟩
      show ∀ path ∈ [pyStr "bin/run", pyStr "readme"], ∀ folder ∈ ancestors path,
        folder ∉ [pyStr "bin/run", pyStr "readme"]
      decide +kernel

/-- The root alone. -/
def root : EmptyView where
  worktree := []
  tree path := if path = [] then some .folder else none
  plain := List.not_mem_nil
  folders _ h := if_pos (List.prefix_nil.mp h)
  empty _ h := if_neg h.2.symm

end MaterialiseFixture

end

namespace MaterialiseFixture

/-- A hash of the length. -/
scoped instance hashlib : Hashlib where
  sha256 content := ⟨BitVec.ofNat 256 content.length⟩

end MaterialiseFixture

open MaterialiseFixture in
theorem raw_materialised_pair :
    ∃ tree', populate [] pair.raw root.tree = .ok tree' ∧
      readBack tree' [] = recorded pair.raw := by
  obtain ⟨-, tree', hrun, -, hread, -⟩ := raw_materialised pair root
  exact ⟨tree', hrun, hread⟩

end Preflight

end NokincFactory
