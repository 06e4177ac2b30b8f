/-
  File:      NokincFactory/Preflight/Binding.lean
  Subject:   What the digest of a candidate tells of the candidate.

  SHA-256 is a parameter. Where the digest of a candidate is concerned it is assumed to tell the two
  payloads at hand, and nothing more.

  * `CandidateFile.map`, …, `CandidateFields.map`: a part with its strings replaced;
  * `payload_encode`: the payload tells its fields, strings written in UTF-16;
  * `Accepted`: a candidate that was validated;
  * `candidate_bound_iff`: one digest is one candidate, but for split surrogate pairs;
  * `split_body_unbound`: two candidates with one digest.
-/
import NokincFactory.Domain.Preflight

namespace NokincFactory

namespace Preflight

open PyValue

/-! ## 1. Parts with other strings -/

section

variable {S T : Type} (f : S → T)

def CandidateChange.map (change : CandidateChange S) : CandidateChange T :=
  ⟨change.kind, change.paths.map f, f change.patchBase64, change.contentDigest⟩

def CandidateFile.map (file : CandidateFile S) : CandidateFile T :=
  ⟨f file.path, f file.contentBase64, file.contentDigest, file.isBinary⟩

def RawWorktree.map (raw : RawWorktree S) : RawWorktree T :=
  ⟨raw.files.map (CandidateFile.map f), raw.missingPaths.map f, raw.executablePaths.map f,
    raw.gitInputsDigest, raw.contentDigest⟩

def TaskContext.map (task : TaskContext S) : TaskContext T :=
  ⟨f task.provider, f task.repository, f task.workItemId, f task.title, f task.body,
    task.labels.map f, f task.sourceUrl, task.contentDigest⟩

def CandidateFields.map (c : CandidateFields S) : CandidateFields T :=
  ⟨f c.baseSha, f c.headSha, c.taskContext.map f, c.committed.map f, c.staged.map f,
    c.unstaged.map f, c.untrackedFiles.map (CandidateFile.map f),
    c.rawWorktree.map (RawWorktree.map f)⟩

end

/-! ## 2. What is written of each part -/

theorem str_encode {s t : PyStr} :
    (str s).sorted.encode = (str t).sorted.encode ↔ utf16 s = utf16 t :=
  ⟨str_of_encode, fun h => by rw [encode_str, encode_str, h]⟩

theorem strList_encode {ss ts : List PyStr} :
    (strList ss).sorted.encode = (strList ts).sorted.encode ↔ ss.map utf16 = ts.map utf16 := by
  rw [strList, strList, encode_list, List.map_map, List.map_map]
  exact map_eq_map_iff fun s t => str_encode

theorem digest_text_injective : Function.Injective Digest.text :=
  fun _ _ h => hex_injective (List.append_cancel_left h)

theorem digestJson_encode {d e : Digest} :
    (digestJson d).sorted.encode = (digestJson e).sorted.encode ↔ d = e :=
  ⟨fun h => digest_text_injective (text_of_encode h), fun h => by rw [h]⟩

theorem bool_encode {x y : Bool} :
    (PyValue.bool x).sorted.encode = (PyValue.bool y).sorted.encode ↔ x = y := by
  rw [sorted, sorted, encode, encode]
  exact ⟨JsonTree.bool.inj, congrArg _⟩

theorem kind_value_injective : Function.Injective CandidateChangeKind.value := by
  intro k l h
  cases k <;> cases l <;> first | rfl | (revert h; decide)

theorem utf16_pyStr_injective {s t : String} (h : utf16 (pyStr s) = utf16 (pyStr t)) : s = t :=
  String.toList_inj.mp
    (pyText_injective (utf16_injective (unpaired_pyText _) (unpaired_pyText _) h))

theorem kind_utf16 {k l : CandidateChangeKind} :
    utf16 (pyStr k.value) = utf16 (pyStr l.value) ↔ k = l :=
  ⟨fun h => kind_value_injective (utf16_pyStr_injective h), fun h => by rw [h]⟩

theorem change_encode {c d : CandidateChange PyStr} :
    c.dump.sorted.encode = d.dump.sorted.encode ↔ c.map utf16 = d.map utf16 := by
  have hkeys : (["kind", "paths", "patch_base64", "content_digest"].map
    fun key => utf16 (pyStr key)).Nodup := by decide
  rw [CandidateChange.dump, CandidateChange.dump]
  refine (record_encode hkeys rfl rfl).trans ?_
  simp only [List.map_cons, List.map_nil, List.cons.injEq, and_true, strList_encode, str_encode,
    kind_utf16, digestJson_encode, CandidateChange.map, CandidateChange.mk.injEq]

theorem file_encode {c d : CandidateFile PyStr} :
    c.dump.sorted.encode = d.dump.sorted.encode ↔ c.map utf16 = d.map utf16 := by
  have hkeys : (["path", "content_base64", "content_digest", "is_binary"].map
    fun key => utf16 (pyStr key)).Nodup := by decide
  rw [CandidateFile.dump, CandidateFile.dump]
  refine (record_encode hkeys rfl rfl).trans ?_
  simp only [List.map_cons, List.map_nil, List.cons.injEq, and_true, bool_encode, str_encode,
    digestJson_encode, CandidateFile.map, CandidateFile.mk.injEq]

theorem files_encode {fs gs : List (CandidateFile PyStr)} :
    (list (fs.map CandidateFile.dump)).sorted.encode
        = (list (gs.map CandidateFile.dump)).sorted.encode ↔
      fs.map (CandidateFile.map utf16) = gs.map (CandidateFile.map utf16) := by
  rw [encode_list, List.map_map, List.map_map]
  exact map_eq_map_iff fun f g => file_encode

theorem raw_encode {r s : RawWorktree PyStr} :
    r.dump.sorted.encode = s.dump.sorted.encode ↔ r.map utf16 = s.map utf16 := by
  have hkeys : (["version", "profile", "files", "missing_paths", "executable_paths",
    "git_inputs_digest", "content_digest"].map fun key => utf16 (pyStr key)).Nodup := by decide
  rw [RawWorktree.dump, RawWorktree.dump]
  refine (record_encode hkeys rfl rfl).trans ?_
  simp only [RawWorktree.fields, List.cons_append, List.nil_append, List.map_cons, List.map_nil,
    List.cons.injEq, and_true, true_and, files_encode, strList_encode, digestJson_encode,
    RawWorktree.map, RawWorktree.mk.injEq]

theorem task_encode {t u : TaskContext PyStr} (hdigest : t.contentDigest = u.contentDigest) :
    t.payload.sorted.encode = u.payload.sorted.encode ↔ t.map utf16 = u.map utf16 := by
  have hkeys : (["provider", "repository", "work_item_id", "title", "body", "labels",
    "source_url"].map fun key => utf16 (pyStr key)).Nodup := by decide
  rw [TaskContext.payload, TaskContext.payload]
  refine (record_encode hkeys rfl rfl).trans ?_
  simp only [List.map_cons, List.map_nil, List.cons.injEq, and_true, strList_encode, str_encode,
    hdigest, TaskContext.map, TaskContext.mk.injEq]

/-- What the payload tells: everything but the content of the work item, of which it has the
digest. -/
structure SamePayload (c d : CandidateFields PyStr) : Prop where
  baseSha : utf16 c.baseSha = utf16 d.baseSha
  headSha : utf16 c.headSha = utf16 d.headSha
  provider : utf16 c.taskContext.provider = utf16 d.taskContext.provider
  repository : utf16 c.taskContext.repository = utf16 d.taskContext.repository
  workItemId : utf16 c.taskContext.workItemId = utf16 d.taskContext.workItemId
  taskDigest : c.taskContext.contentDigest = d.taskContext.contentDigest
  committed : c.committed.map utf16 = d.committed.map utf16
  staged : c.staged.map utf16 = d.staged.map utf16
  unstaged : c.unstaged.map utf16 = d.unstaged.map utf16
  untrackedFiles : (sortedFiles c.untrackedFiles).map (CandidateFile.map utf16)
    = (sortedFiles d.untrackedFiles).map (CandidateFile.map utf16)
  rawWorktree : c.rawWorktree.map (RawWorktree.map utf16)
    = d.rawWorktree.map (RawWorktree.map utf16)

theorem taskPart_encode {t u : TaskContext PyStr} :
    (record [("provider", .str t.provider), ("repository", .str t.repository),
      ("work_item_id", .str t.workItemId),
      ("content_digest", digestJson t.contentDigest)]).sorted.encode
    = (record [("provider", .str u.provider), ("repository", .str u.repository),
      ("work_item_id", .str u.workItemId),
      ("content_digest", digestJson u.contentDigest)]).sorted.encode ↔
    utf16 t.provider = utf16 u.provider ∧ utf16 t.repository = utf16 u.repository ∧
      utf16 t.workItemId = utf16 u.workItemId ∧ t.contentDigest = u.contentDigest := by
  have hkeys : (["provider", "repository", "work_item_id", "content_digest"].map
    fun key => utf16 (pyStr key)).Nodup := by decide
  refine (record_encode hkeys rfl rfl).trans ?_
  simp only [List.map_cons, List.map_nil, List.cons.injEq, and_true, str_encode, digestJson_encode]

theorem changes_encode {c d : CandidateFields PyStr} :
    (list (c.changes.map CandidateChange.dump)).sorted.encode
      = (list (d.changes.map CandidateChange.dump)).sorted.encode ↔
    c.committed.map utf16 = d.committed.map utf16 ∧ c.staged.map utf16 = d.staged.map utf16 ∧
      c.unstaged.map utf16 = d.unstaged.map utf16 := by
  rw [encode_list]
  simp only [CandidateFields.changes, List.map_cons, List.map_nil, List.cons.injEq, and_true,
    change_encode]

theorem samePayload_iff {c d : CandidateFields PyStr} : SamePayload c d ↔
    utf16 c.baseSha = utf16 d.baseSha ∧ utf16 c.headSha = utf16 d.headSha ∧
    (utf16 c.taskContext.provider = utf16 d.taskContext.provider ∧
      utf16 c.taskContext.repository = utf16 d.taskContext.repository ∧
      utf16 c.taskContext.workItemId = utf16 d.taskContext.workItemId ∧
      c.taskContext.contentDigest = d.taskContext.contentDigest) ∧
    (c.committed.map utf16 = d.committed.map utf16 ∧ c.staged.map utf16 = d.staged.map utf16 ∧
      c.unstaged.map utf16 = d.unstaged.map utf16) ∧
    (sortedFiles c.untrackedFiles).map (CandidateFile.map utf16)
      = (sortedFiles d.untrackedFiles).map (CandidateFile.map utf16) ∧
    c.rawWorktree.map (RawWorktree.map utf16) = d.rawWorktree.map (RawWorktree.map utf16) := by
  constructor
  · intro h
    exact ⟨h.baseSha, h.headSha, ⟨h.provider, h.repository, h.workItemId, h.taskDigest⟩,
      ⟨h.committed, h.staged, h.unstaged⟩, h.untrackedFiles, h.rawWorktree⟩
  · rintro ⟨hbase, hhead, ⟨hprovider, hrepository, hitem, htask⟩, ⟨hcommitted, hstaged, hunstaged⟩,
      hfiles, hraw⟩
    exact ⟨hbase, hhead, hprovider, hrepository, hitem, htask, hcommitted, hstaged, hunstaged,
      hfiles, hraw⟩

/-- Payloads with and without a sixth member differ; otherwise their members are compared. -/
theorem payload_encode {c d : CandidateFields PyStr} :
    c.payload.sorted.encode = d.payload.sorted.encode ↔ SamePayload c d := by
  have hfive : (["base_sha", "head_sha", "task_context", "changes", "untracked_files"].map
    fun key => utf16 (pyStr key)).Nodup := by decide
  have hsix : (["base_sha", "head_sha", "task_context", "changes", "untracked_files",
    "raw_worktree"].map fun key => utf16 (pyStr key)).Nodup := by decide
  have hcount (h : c.payload.sorted.encode = d.payload.sorted.encode) :
      c.payloadFields.length = d.payloadFields.length := by
    have hlength := (perm_of_encode_dict h).length_eq
    simpa [keyed] using hlength
  rw [samePayload_iff]
  rw [CandidateFields.payload, CandidateFields.payload] at hcount ⊢
  rw [CandidateFields.payloadFields, CandidateFields.payloadFields] at hcount ⊢
  cases hc : c.rawWorktree with
  | none =>
    cases hd : d.rawWorktree with
    | none =>
      refine (record_encode hfive rfl rfl).trans ?_
      simp only [List.append_nil, List.map_cons, List.map_nil, List.cons.injEq, and_true,
        str_encode, taskPart_encode, changes_encode, files_encode, Option.map_none]
    | some raw =>
      rw [hc, hd] at hcount
      refine ⟨fun h => absurd (show 5 = 6 from hcount h) (by decide), fun h => ?_⟩
      cases h.2.2.2.2.2
  | some raw =>
    cases hd : d.rawWorktree with
    | none =>
      rw [hc, hd] at hcount
      refine ⟨fun h => absurd (show 6 = 5 from hcount h) (by decide), fun h => ?_⟩
      cases h.2.2.2.2.2
    | some raw' =>
      refine (record_encode hsix rfl rfl).trans ?_
      simp only [List.cons_append, List.nil_append, List.map_cons, List.map_nil, List.cons.injEq,
        and_true, str_encode, taskPart_encode, changes_encode, files_encode, raw_encode,
        Option.map_some, Option.some.injEq]

/-! ## 3. Accepted candidates -/

section

variable [Hashlib] [UrlSplit]

/-- A candidate that was validated. -/
structure Accepted where
  candidate : PreflightCandidate
  valid : candidate.validate = .ok ()

/-- What holds of fields for which `candidate_digest` returns. -/
structure Digestible (c : CandidateFields PyStr) : Prop where
  task : c.taskContext.validate = .ok ()
  changes : ∀ change ∈ c.changes, change.validate = .ok ()
  kinds : c.changes.map CandidateChange.kind = [.committed, .staged, .unstaged]
  files : ∀ file ∈ c.untrackedFiles, file.validate = .ok ()
  distinct : (c.untrackedFiles.map CandidateFile.path).Nodup
  shas : c.baseSha ≠ [] ∧ c.headSha ≠ []
  raw : ∀ raw ∈ c.rawWorktree, raw.validate = .ok () ∧
    CandidateFields.AgreesWith c.untrackedFiles raw

omit [UrlSplit] in
theorem validateRaw_ok {c : CandidateFields PyStr} :
    c.validateRaw = .ok () ↔
      ∀ raw ∈ c.rawWorktree, raw.validate = .ok () ∧
        CandidateFields.AgreesWith c.untrackedFiles raw := by
  rw [CandidateFields.validateRaw]
  cases c.rawWorktree with
  | none => exact ⟨fun _ raw hraw => (nomatch hraw), fun _ => rfl⟩
  | some raw =>
    rw [Option.elim_some, Except.seq_ok, guardThat_ok]
    constructor
    · rintro h _ ⟨⟩
      exact h
    · intro h
      exact h raw rfl

theorem candidateDigest_ok {c : CandidateFields PyStr} {digest : Digest} :
    c.candidateDigest = .ok digest ↔
      Digestible c ∧ digest = Sha256.digest c.payload.dumps := by
  rw [CandidateFields.candidateDigest]
  simp only [Except.seq_ok, guardThat_ok, List.forM_ok, Except.pure_ok, validateRaw_ok]
  constructor
  · rintro ⟨htask, hchanges, hkinds, hfiles, hdistinct, hshas, hraw, rfl⟩
    exact ⟨⟨htask, hchanges, hkinds, hfiles, hdistinct, hshas, hraw⟩, rfl⟩
  · rintro ⟨h, rfl⟩
    exact ⟨h.task, h.changes, h.kinds, h.files, h.distinct, h.shas, h.raw, rfl⟩

/-- What holds of an accepted candidate. -/
theorem validate_ok {c : PreflightCandidate} (h : c.validate = .ok ()) :
    Digestible c.toCandidateFields ∧ SortedUnique (c.untrackedFiles.map CandidateFile.path) ∧
      c.digest = Sha256.digest c.payload.dumps := by
  rw [PreflightCandidate.validate] at h
  obtain ⟨-, h⟩ := Except.seq_ok.mp h
  obtain ⟨-, h⟩ := Except.seq_ok.mp h
  obtain ⟨-, h⟩ := Except.seq_ok.mp h
  obtain ⟨-, h⟩ := Except.seq_ok.mp h
  obtain ⟨-, h⟩ := Except.seq_ok.mp h
  obtain ⟨hsorted, h⟩ := Except.seq_ok.mp h
  obtain ⟨-, h⟩ := Except.seq_ok.mp h
  obtain ⟨expected, hexpected, hdigest⟩ := Except.bind_ok.mp h
  obtain ⟨hdigestible, rfl⟩ := candidateDigest_ok.mp hexpected
  exact ⟨hdigestible, guardThat_ok.mp hsorted, guardThat_ok.mp hdigest⟩

theorem task_digest {task : TaskContext PyStr} (h : task.validate = .ok ()) :
    task.contentDigest = Sha256.digest task.payload.dumps := by
  rw [TaskContext.validate] at h
  simp only [Except.seq_ok, guardThat_ok] at h
  exact h.2.2.2.2.2.2

omit [Hashlib] [UrlSplit] in
theorem SortedUnique.pairwise {values : List PyStr} (h : SortedUnique values) :
    values.Pairwise (· ≤ ·) ∧ values.Nodup := by
  have hsorted := List.pairwise_insertionSort (· ≤ ·) values.dedup
  have hnodup := (List.perm_insertionSort (· ≤ ·) values.dedup).nodup_iff.mpr values.nodup_dedup
  rw [← sortedStr, ← h] at hsorted hnodup
  exact ⟨hsorted, hnodup⟩

omit [Hashlib] [UrlSplit] in
/-- Sorted paths without repetition leave the files where they are. -/
theorem sortedFiles_eq {files : List (CandidateFile PyStr)}
    (h : SortedUnique (files.map CandidateFile.path)) : sortedFiles files = files :=
  (List.pairwise_map.mp h.pairwise.1).insertionSort_eq

/-- The message of a digest. -/
def CollisionFree (s t : List Char) : Prop :=
  Sha256.digest s = Sha256.digest t → s = t

/-- SHA-256 does not confuse the payloads of two candidates, nor those of their work items. -/
structure Distinguished (c d : CandidateFields PyStr) : Prop where
  payload : CollisionFree c.payload.dumps d.payload.dumps
  task : CollisionFree c.taskContext.payload.dumps d.taskContext.payload.dumps

/-- Accepted candidates that share a digest are one candidate in UTF-16. -/
theorem same_of_digest {a b : Accepted}
    (hsha : Distinguished a.candidate.toCandidateFields b.candidate.toCandidateFields)
    (h : a.candidate.digest = b.candidate.digest) :
    a.candidate.map utf16 = b.candidate.map utf16 := by
  obtain ⟨hda, hsa, hdigest⟩ := validate_ok a.valid
  obtain ⟨hdb, hsb, hdigest'⟩ := validate_ok b.valid
  have hpayload := hsha.payload (hdigest.symm.trans (h.trans hdigest'))
  have hsame := payload_encode.mp (dumps_eq.mp hpayload)
  have htask : a.candidate.taskContext.payload.dumps = b.candidate.taskContext.payload.dumps :=
    hsha.task ((task_digest hda.task).symm.trans (hsame.taskDigest.trans (task_digest hdb.task)))
  have hcontext := (task_encode hsame.taskDigest).mp (dumps_eq.mp htask)
  have hfiles := hsame.untrackedFiles
  rw [sortedFiles_eq hsa, sortedFiles_eq hsb] at hfiles
  rw [CandidateFields.map, CandidateFields.map, hsame.baseSha, hsame.headSha, hcontext,
    hsame.committed, hsame.staged, hsame.unstaged, hfiles, hsame.rawWorktree]

/-- And candidates that are one in UTF-16 share their digest. -/
theorem digest_of_same {a b : Accepted}
    (h : a.candidate.map utf16 = b.candidate.map utf16) :
    a.candidate.digest = b.candidate.digest := by
  obtain ⟨hda, hsa, hdigest⟩ := validate_ok a.valid
  obtain ⟨hdb, hsb, hdigest'⟩ := validate_ok b.valid
  simp only [CandidateFields.map, CandidateFields.mk.injEq, TaskContext.map, TaskContext.mk.injEq]
    at h
  obtain ⟨hbase, hhead, ⟨hprovider, hrepository, hitem, -, -, -, -, htask⟩, hcommitted, hstaged,
    hunstaged, hfiles, hraw⟩ := h
  have hsame : SamePayload a.candidate.toCandidateFields b.candidate.toCandidateFields := by
    refine ⟨hbase, hhead, hprovider, hrepository, hitem, htask, hcommitted, hstaged, hunstaged,
      ?_, hraw⟩
    rw [sortedFiles_eq hsa, sortedFiles_eq hsb]
    exact hfiles
  rw [hdigest, hdigest', dumps_eq.mpr (payload_encode.mpr hsame)]

/-! ## 4. Orders, and the raw worktree -/

instance : Std.Total fun f g : CandidateFile PyStr => f.path ≤ g.path :=
  ⟨fun f g => le_total f.path g.path⟩

instance : IsTrans (CandidateFile PyStr) fun f g => f.path ≤ g.path :=
  ⟨fun _ _ _ => le_trans⟩

omit [Hashlib] [UrlSplit] in
/-- Files of different paths have one sorted order. -/
theorem sortedFiles_perm {files others : List (CandidateFile PyStr)}
    (hdistinct : (files.map CandidateFile.path).Nodup) (h : others.Perm files) :
    sortedFiles others = sortedFiles files := by
  have hperm : (sortedFiles others).Perm (sortedFiles files) :=
    (List.perm_insertionSort _ others).trans (h.trans (List.perm_insertionSort _ files).symm)
  refine hperm.eq_of_pairwise (fun f g hf hg hfg hgf => ?_)
    (List.pairwise_insertionSort _ others) (List.pairwise_insertionSort _ files)
  have hf' : f ∈ files := h.subset ((List.mem_insertionSort _).mp hf)
  have hg' : g ∈ files := (List.mem_insertionSort _).mp hg
  exact List.inj_on_of_nodup_map hdistinct hf' hg' (le_antisymm hfg hgf)

/-- The order in which the untracked files are listed does not matter. -/
theorem create_perm {fields : CandidateFields PyStr} {files : List (CandidateFile PyStr)}
    {c : PreflightCandidate} (hfiles : files.Perm fields.untrackedFiles)
    (h : PreflightCandidate.create fields = .ok c) :
    PreflightCandidate.create { fields with untrackedFiles := files } = .ok c := by
  obtain ⟨digest, hdigest, h⟩ := Except.bind_ok.mp h
  obtain ⟨hd, rfl⟩ := candidateDigest_ok.mp hdigest
  have hsorted := sortedFiles_perm hd.distinct hfiles
  have hpayload : CandidateFields.payload { fields with untrackedFiles := files } = fields.payload := by
    rw [CandidateFields.payload, CandidateFields.payload, CandidateFields.payloadFields,
      CandidateFields.payloadFields]
    simp only [hsorted]
    rfl
  have hd' : Digestible { fields with untrackedFiles := files } :=
    { hd with
      files := fun file hfile => hd.files file (hfiles.subset hfile)
      distinct := (hfiles.map _).nodup_iff.mpr hd.distinct
      raw := fun raw hraw => ⟨(hd.raw raw hraw).1, fun file hfile =>
        (hd.raw raw hraw).2 file (hfiles.subset hfile)⟩ }
  rw [PreflightCandidate.create]
  refine Except.bind_ok.mpr ⟨_, candidateDigest_ok.mpr ⟨hd', rfl⟩, ?_⟩
  rw [hpayload]
  simp only [hsorted]
  exact h

omit [UrlSplit] in
/-- The paths of an accepted raw worktree are sorted and different. -/
theorem raw_paths {raw : RawWorktree PyStr} (h : raw.validate = .ok ()) :
    SortedUnique raw.paths := by
  rw [RawWorktree.validate] at h
  obtain ⟨-, h⟩ := Except.seq_ok.mp h
  obtain ⟨hpaths, -⟩ := Except.seq_ok.mp h
  have hfiles := List.forM_ok.mp hpaths raw.paths List.mem_cons_self
  exact guardThat_ok.mp (Except.seq_ok.mp hfiles).1

/-- The untracked files of an accepted candidate are those of its raw worktree. -/
theorem untracked_in_raw (a : Accepted) {raw : RawWorktree PyStr}
    (hraw : raw ∈ a.candidate.rawWorktree) {file : CandidateFile PyStr}
    (hfile : file ∈ a.candidate.untrackedFiles) :
    file ∈ raw.files ∧ ∀ other ∈ raw.files, other.path = file.path → other = file := by
  obtain ⟨hd, -, -⟩ := validate_ok a.valid
  obtain ⟨hvalid, hagrees⟩ := hd.raw raw hraw
  have hmem : file ∈ raw.files := List.mem_reverse.mp (List.mem_of_find?_eq_some (hagrees file hfile))
  exact ⟨hmem, fun other hother hpath =>
    List.inj_on_of_nodup_map (raw_paths hvalid).pairwise.2 hother hmem hpath⟩

/-- Candidates that share a digest are one candidate unless they differ only in how they write
characters beyond the basic plane; the order of the untracked files does not enter the digest; and
the untracked files are those of the raw worktree. -/
theorem candidate_bound_iff :
    (∀ a b : Accepted, Distinguished a.candidate.toCandidateFields b.candidate.toCandidateFields →
      ((a.candidate.digest = b.candidate.digest →
          a.candidate.toCandidateFields = b.candidate.toCandidateFields) ↔
        (a.candidate.map utf16 = b.candidate.map utf16 →
          a.candidate.toCandidateFields = b.candidate.toCandidateFields))) ∧
    (∀ (fields : CandidateFields PyStr) (files : List (CandidateFile PyStr))
      (c : PreflightCandidate), files.Perm fields.untrackedFiles →
      PreflightCandidate.create fields = .ok c →
      PreflightCandidate.create { fields with untrackedFiles := files } = .ok c) ∧
    ∀ (a : Accepted), ∀ raw ∈ a.candidate.rawWorktree, ∀ file ∈ a.candidate.untrackedFiles,
      file ∈ raw.files ∧ ∀ other ∈ raw.files, other.path = file.path → other = file := by
  refine ⟨fun a b hsha => ⟨fun h hsame => ?_, fun h hdigest => ?_⟩, fun fields files c hfiles h => ?_,
    fun a raw hraw file hfile => ?_⟩
  · exact h (digest_of_same hsame)
  · exact h (same_of_digest hsha hdigest)
  · exact create_perm hfiles h
  · exact untracked_in_raw a hraw hfile

end

namespace BindingFixture

/-- `urlsplit` of an address with a host alone before its path. -/
scoped instance : UrlSplit where
  urlsplit url :=
    let rest := url.drop 8
    .ok ⟨some (rest.takeWhile (!isChar · '/')), none, none, .ok none, rest.dropWhile (!isChar · '/')⟩

section

variable [Hashlib]

def draftItem (body : PyStr) : TaskContext PyStr where
  provider := pyStr "github"
  repository := pyStr "acme/app"
  workItemId := pyStr "7"
  title := pyStr "Fix"
  body := body
  labels := []
  sourceUrl := pyStr "https://github.com/acme/app/issues/7"
  contentDigest := ⟨0⟩

def noChange (kind : CandidateChangeKind) : CandidateChange PyStr :=
  ⟨kind, [], [], Hashlib.sha256 []⟩

def fieldsOf (body : PyStr) : CandidateFields PyStr where
  baseSha := pyStr "b"
  headSha := pyStr "h"
  taskContext :=
    { draftItem body with contentDigest := Sha256.digest (draftItem body).payload.dumps }
  committed := noChange .committed
  staged := noChange .staged
  unstaged := noChange .unstaged
  untrackedFiles := []
  rawWorktree := none

/-- The candidate of a work item whose body is the text. -/
def candidateOf (body : PyStr) : PreflightCandidate :=
  { fieldsOf body with digest := Sha256.digest (fieldsOf body).payload.dumps }

def repository : PyStr := pyStr "acme/app"

theorem source_valid (body : PyStr) : (fieldsOf body).taskContext.validateSource = .ok () := by
  have hvalid : (draftItem []).validateSource = .ok () := by decide +kernel
  exact hvalid

theorem item_valid (body : PyStr) : (fieldsOf body).taskContext.validate = .ok () := by
  rw [TaskContext.validate]
  simp only [Except.seq_ok, guardThat_ok]
  exact ⟨(by decide : encodable (pyStr "github") ∧ pyStr "github" ≠ []),
    (by decide : repositoryPattern repository), (by decide : workItemPattern (pyStr "7")),
    (by decide : encodable (pyStr "Fix") ∧ pyStr "Fix" ≠ []), source_valid body,
    ⟨rfl, fun label hlabel => (nomatch hlabel)⟩, rfl⟩

theorem noChange_valid (kind : CandidateChangeKind) : (noChange kind).validate = .ok () := by
  have hnone : (encodeAscii []).bind b64decode = some [] := by decide
  have hcontent : decodedContent [] (Hashlib.sha256 []) = .ok [] := by
    rw [decodedContent, hnone]
    exact Except.seq_ok.mpr ⟨guardThat_pass ⟨rfl, rfl⟩, rfl⟩
  rw [CandidateChange.validate]
  refine Except.seq_ok.mpr ⟨guardThat_pass (rfl : [] = sortedStr [].dedup), ?_⟩
  exact Except.seq_ok.mpr ⟨rfl, Except.bind_ok.mpr ⟨[], hcontent, rfl⟩⟩

theorem changes_valid (body : PyStr) :
    ∀ change ∈ (fieldsOf body).changes, change.validate = .ok () := by
  intro change hchange
  rcases List.mem_cons.mp hchange with rfl | hchange
  · exact noChange_valid _
  · rcases List.mem_pair.mp hchange with rfl | rfl
    · exact noChange_valid _
    · exact noChange_valid _

/-- A candidate without files is accepted whatever the body. -/
theorem candidateOf_valid (body : PyStr) : (candidateOf body).validate = .ok () := by
  have hdigest : (fieldsOf body).candidateDigest = .ok (candidateOf body).digest := by
    refine candidateDigest_ok.mpr ⟨?_, rfl⟩
    exact ⟨item_valid body, changes_valid body, rfl, fun file hfile => (nomatch hfile), .nil,
      (by decide : pyStr "b" ≠ [] ∧ pyStr "h" ≠ []), fun raw hraw => (nomatch hraw)⟩
  rw [PreflightCandidate.validate]
  refine Except.seq_ok.mpr ⟨guardThat_pass (by decide : encodable (pyStr "b") ∧ pyStr "b" ≠ []), ?_⟩
  refine Except.seq_ok.mpr ⟨guardThat_pass (by decide : encodable (pyStr "h") ∧ pyStr "h" ≠ []), ?_⟩
  refine Except.seq_ok.mpr ⟨item_valid body, ?_⟩
  refine Except.seq_ok.mpr ⟨List.forM_ok.mpr (changes_valid body), ?_⟩
  refine Except.seq_ok.mpr ⟨rfl, ?_⟩
  refine Except.seq_ok.mpr ⟨guardThat_pass (rfl : [] = sortedStr [].dedup), ?_⟩
  refine Except.seq_ok.mpr ⟨rfl, ?_⟩
  exact Except.bind_ok.mpr ⟨_, hdigest, guardThat_pass rfl⟩

/-- One character, and the two surrogates of its pair. -/
def face : PyStr := [⟨0x1f600, by decide⟩]

def splitFace : PyStr := [⟨0xd83d, by decide⟩, ⟨0xde00, by decide⟩]

theorem item_same : (fieldsOf face).taskContext.payload.dumps =
    (fieldsOf splitFace).taskContext.payload.dumps := by
  have hutf16 : utf16 face = utf16 splitFace := by decide
  have hmap : (draftItem face).map utf16 = (draftItem splitFace).map utf16 := by
    simp only [TaskContext.map, draftItem, hutf16]
  exact dumps_eq.mpr ((task_encode (t := draftItem face) (u := draftItem splitFace) rfl).mpr hmap)

theorem payload_same : (fieldsOf face).payload.dumps = (fieldsOf splitFace).payload.dumps := by
  refine dumps_eq.mpr (payload_encode.mpr ?_)
  have hdigest : (fieldsOf face).taskContext.contentDigest =
      (fieldsOf splitFace).taskContext.contentDigest := congrArg Sha256.digest item_same
  constructor
  case taskDigest => exact hdigest
  all_goals simp only [fieldsOf, draftItem]

end

/-- A hash for the tests: the bytes as the digits of a number. -/
scoped instance : Hashlib where
  sha256 bytes := ⟨BitVec.ofNat 256 (bytes.foldl (fun acc b => acc * 257 + b.val + 1) 0)⟩

end BindingFixture

open BindingFixture in
theorem split_body_unbound :
    (candidateOf face).validate = .ok () ∧ (candidateOf splitFace).validate = .ok () ∧
      (candidateOf face).digest = (candidateOf splitFace).digest ∧
      Distinguished (fieldsOf face) (fieldsOf splitFace) ∧
      (candidateOf face).taskContext.body ≠ (candidateOf splitFace).taskContext.body := by
  refine ⟨candidateOf_valid face, candidateOf_valid splitFace, ?_,
    ⟨fun _ => payload_same, fun _ => item_same⟩, by decide⟩
  exact congrArg Sha256.digest payload_same

end Preflight

end NokincFactory
