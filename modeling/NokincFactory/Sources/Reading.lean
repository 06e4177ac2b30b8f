/-
  File:      NokincFactory/Sources/Reading.lean
  Subject:   What reading a repository asks for, and what its evidence is worth.

  The broker, the clock and GitHub may answer anything. SHA-1 is a parameter: that no other bytes
  have the SHA of a blob is not assumed.

  * `Reader.visits`: the protocol: a token for a repository of the allowlist, the time, and then
    the metadata, the tree and the selected files, each at one address below that repository;
  * `content_segments`, `content_below`: such an address has the parts of the path it names;
  * `Verified`, `Collected`: the bytes that a file stands for, and the files of a selection;
  * `sources_faithful`: the evidence that is returned is whole, and the bytes of its blobs.
-/
import NokincFactory.Sources.Selection

namespace NokincFactory.RepositoryReader

open SourceLibraries Protocol

/-! ## 1. Addresses -/

section Addresses

variable {repository branch path : String} {owner name : List Char}

/-- The address without its query. -/
def resourcePath (address : String) : List Char := address.toList.takeWhile (· ≠ '?')

/-- The first parts of every address of a repository. -/
def repositorySegments (owner name : List Char) : List (List Char) :=
  [[], "repos".toList, percentEncode [] (pyText owner), percentEncode [] (pyText name)]

theorem encoded_notMem {safe text : List Char} {c : Char} (hsign : c ≠ '%')
    (hreserved : unreserved c = false) (hsafe : c ∉ safe) :
    c ∉ percentEncode safe (pyText text) := by
  intro h
  rcases percentEncode_chars h with h | h | h
  · exact hsign h
  · rw [hreserved] at h
    cases h
  · exact hsafe h

theorem encoded_segments (text : List Char) :
    segments (percentEncode [] (pyText text)) = [percentEncode [] (pyText text)] :=
  segments_plain (encoded_notMem (by decide) (by decide) List.not_mem_nil)

theorem encoded_dots {text : List Char} (h : percentEncode [] (pyText text) = ['.', '.']) :
    text = ['.', '.'] := by
  have hplain : '%' ∉ percentEncode [] (pyText text) → percentEncode [] (pyText text) = text :=
    percentEncode_plain fun _ => rfl
  rw [h] at hplain
  exact (hplain (by decide)).symm

theorem repository_segments (owner name : List Char) :
    segments (repositoryPath owner name) = repositorySegments owner name := by
  have hsplit : repositoryPath owner name =
      ([] ++ '/' :: ("repos".toList ++ '/' :: percentEncode [] (pyText owner))) ++
        '/' :: percentEncode [] (pyText name) := rfl
  rw [hsplit, segments_append, segments_append, segments_append, encoded_segments,
    encoded_segments]
  rfl

theorem ownerAndName_segments (h : ownerAndName repository = some (owner, name)) :
    segments repository.toList = [owner, name] ∧ owner ≠ ['.', '.'] ∧ name ≠ ['.', '.'] := by
  unfold ownerAndName at h
  split at h
  · rename_i first second hparts
    split at h
    · cases h
    · rename_i hnamed
      cases h
      rw [not_or] at hnamed
      refine ⟨hparts, fun hdots => hnamed.1 ?_, fun hdots => hnamed.2 ?_⟩
      · rw [hdots]
        decide
      · rw [hdots]
        decide
  · cases h

/-- What follows the last slash of a name of the allowlist. -/
theorem ownerAndName_last (h : ownerAndName repository = some (owner, name)) :
    afterLast '/' repository.toList = name := by
  have hparts := (ownerAndName_segments h).1
  have hname : name ∈ segments repository.toList := by
    rw [hparts]
    exact List.mem_cons_of_mem _ (List.mem_singleton_self _)
  rw [← intercalate_segments repository.toList, hparts, List.intercalate_cons_cons,
    List.intercalate_singleton, List.append_assoc, List.singleton_append]
  exact afterLast_append (slash_notMem_segments hname)

/-- The address of a file has the parts of its path, each of them encoded. -/
theorem content_segments (owner name : List Char) (branch path : String) :
    segments (resourcePath (contentPath owner name branch path)) =
      repositorySegments owner name ++ "contents".toList ::
        (segments path.toList).map fun part => percentEncode [] (pyText part) := by
  have hbefore : resourcePath (contentPath owner name branch path) =
      repositoryPath owner name ++ '/' :: ("contents".toList ++
        '/' :: percentEncode ['/'] (pyStr path)) := by
    unfold resourcePath contentPath
    rw [String.toList_ofList, List.append_assoc _ "?ref=".toList, List.takeWhile_append_of_pos]
    · have hquery : List.takeWhile (fun c => decide (c ≠ '?'))
          ("?ref=".toList ++ percentEncodePlus (pyStr branch)) = [] := rfl
      rw [hquery, List.append_nil, List.append_assoc]
      rfl
    · intro c hc
      refine decide_eq_true fun hquery => ?_
      rw [hquery] at hc
      unfold repositoryPath pyStr at hc
      simp only [List.mem_append, List.mem_cons] at hc
      rcases hc with (((hc | hc) | hc | hc) | hc) | hc
      · exact absurd hc (by decide)
      · exact encoded_notMem (by decide) (by decide) List.not_mem_nil hc
      · exact absurd hc (by decide)
      · exact encoded_notMem (by decide) (by decide) List.not_mem_nil hc
      · exact absurd hc (by decide)
      · exact encoded_notMem (by decide) (by decide) (by decide) hc
  rw [hbefore, segments_append, segments_append, repository_segments,
    show segments "contents".toList = ["contents".toList] from segments_plain (by decide)]
  have hencoded : segments (percentEncode ['/'] (pyStr path)) =
      (segments path.toList).map fun part => percentEncode [] (pyText part) :=
    segments_percentEncode (fun _ => rfl) _
  rw [hencoded]
  rfl

/-- An address below a repository: it begins with the parts of the repository's own address, and
no part of it leads up. -/
def Below (owner name : List Char) (address : String) : Prop :=
  repositorySegments owner name <+: segments (resourcePath address) ∧
    ['.', '.'] ∉ segments (resourcePath address)

/-- A file without a part `..` in its path has an address below the repository. -/
theorem content_below (hnamed : ownerAndName repository = some (owner, name))
    (h : ['.', '.'] ∉ posixParts path.toList) :
    Below owner name (contentPath owner name branch path) := by
  unfold Below
  rw [content_segments]
  refine ⟨List.prefix_append _ _, fun hmem => ?_⟩
  obtain ⟨-, howner, hname⟩ := ownerAndName_segments hnamed
  rcases List.mem_append.mp hmem with hmem | hmem
  · simp only [repositorySegments, List.mem_cons, List.not_mem_nil, or_false] at hmem
    rcases hmem with hmem | hmem | hmem | hmem
    · cases hmem
    · exact absurd hmem (by decide)
    · exact howner (encoded_dots hmem.symm)
    · exact hname (encoded_dots hmem.symm)
  · rcases List.mem_cons.mp hmem with hmem | hmem
    · exact absurd hmem (by decide)
    · obtain ⟨part, hpart, hdots⟩ := List.mem_map.mp hmem
      rw [encoded_dots hdots] at hpart
      exact h (List.mem_append_right _ (List.mem_filter.mpr ⟨hpart, by decide⟩))

end Addresses

/-! ## 2. The protocol -/

/-- What was answered so far, and whether an answer raised. -/
structure Visit where
  raised : Bool
  token : Option InstallationToken
  now : Option Moment
  metadata : Option GitHubRepositoryMetadata
  tree : Option GitHubTreeResponse
  contents : List GitHubContentResponse

/-- Nothing was asked yet. -/
def Visit.fresh : Visit := ⟨false, none, none, none, none, []⟩

/-- The stage after an answer. -/
def Visit.answered {α : Type} (v : Visit) (store : α → Visit) : Except ReaderError α → Visit
  | .ok value => store value
  | .error _ => { v with raised := true }

/-- No answer raised, and the token was granted for this name; when the time was read, it lasted
for more than half a minute. -/
def Licensed (name : List Char) (v : Visit) (token : String) : Prop :=
  v.raised = false ∧ ∃ granted now, v.token = some granted ∧ v.now = some now ∧
    granted.token = token ∧ String.ofList name ∈ granted.repositories ∧
    now.micros + 30 * micro < granted.expiresAt.micros

section Visits

variable [SourceLibraries]

/-- Which address is asked for next: the repository, its tree, or the next selected file. -/
def Reader.Addressed (r : Reader) (question : String) (owner name : List Char) (v : Visit)
    (path : String) : Resource → Prop
  | .metadata => v.metadata = none ∧ v.tree = none ∧ v.contents = [] ∧
      path = String.ofList (repositoryPath owner name)
  | .tree => ∃ metadata, v.metadata = some metadata ∧ v.tree = none ∧ v.contents = [] ∧
      path = treePath owner name metadata.defaultBranch
  | .content => ∃ metadata tree entry, v.metadata = some metadata ∧ v.tree = some tree ∧
      tree.truncated = false ∧
      (r.selectSources tree.tree question)[v.contents.length]? = some entry ∧
      path = contentPath owner name metadata.defaultBranch entry.path ∧ Below owner name path

/-- The protocol of a reading. After an answer that raises, nothing may be asked. -/
def Reader.visits (r : Reader) (repository question : String) :
    Protocol ReaderAsk ReaderAsk.Answer Visit where
  allows v
    | .tokenFor name => v = .fresh ∧ name = repository ∧ repository ∈ r.repositories
    | .clock => v.raised = false ∧ v.token ≠ none ∧ v.now = none
    | .get token path resource => ∃ owner name, ownerAndName repository = some (owner, name) ∧
        Licensed name v token ∧ r.Addressed question owner name v path resource
  next v
    | .tokenFor _, answer => v.answered (fun token => { v with token := some token }) answer
    | .clock, now => { v with now := some now }
    | .get _ _ .metadata, answer =>
        v.answered (fun metadata => { v with metadata := some metadata }) answer
    | .get _ _ .tree, answer => v.answered (fun tree => { v with tree := some tree }) answer
    | .get _ _ .content, answer =>
        v.answered (fun content => { v with contents := v.contents ++ [content] }) answer

end Visits

/-! ## 3. Evidence -/

section Evidence

variable [SourceLibraries] [Hashlib]

/-- A response for an entry, and the bytes in it. -/
structure Verified (entry : GitHubTreeEntry) (response : GitHubContentResponse)
    (content : List Byte) : Prop where
  path : response.path = entry.path
  sha : response.sha = entry.sha
  size : entry.size = some content.length
  letters : strictBase64 (withoutBlanks response.content) = some content
  text : (0 : Byte) ∉ content
  blob : blobSha content = entry.sha

/-- The bytes of a file's text. -/
def textBytes (file : RepositorySourceFile) : List Byte := utf8 (pyStr file.text)

/-- The files that entries and the responses to them amount to. -/
inductive Collected : List GitHubTreeEntry → List GitHubContentResponse →
    List RepositorySourceFile → Prop where
  | none : Collected [] [] []
  | file (entries : List GitHubTreeEntry) (responses : List GitHubContentResponse)
      (files : List RepositorySourceFile) (entry : GitHubTreeEntry)
      (response : GitHubContentResponse) (file : RepositorySourceFile)
      (h : Collected entries responses files) (hverified : Verified entry response (textBytes file))
      (hpath : file.path = entry.path) (hsha : file.blobSha = entry.sha)
      (hdigest : file.contentDigest = Hashlib.sha256 (textBytes file)) (htext : file.text ≠ "")
      (hclean : ¬ CredentialLike file.text) :
      Collected (entries ++ [entry]) (responses ++ [response]) (files ++ [file])
  | noText (entries : List GitHubTreeEntry) (responses : List GitHubContentResponse)
      (files : List RepositorySourceFile) (entry : GitHubTreeEntry)
      (response : GitHubContentResponse) (content : List Byte)
      (h : Collected entries responses files) (hverified : Verified entry response content)
      (hnone : decodeText content = Option.none) :
      Collected (entries ++ [entry]) (responses ++ [response]) files

variable {entries : List GitHubTreeEntry} {responses : List GitHubContentResponse}
  {files : List RepositorySourceFile}

theorem Collected.length_responses (h : Collected entries responses files) :
    responses.length = entries.length := by
  induction h with
  | none => rfl
  | file entries responses files entry response file h hverified hpath hsha hdigest htext hclean
      ih =>
      simp [ih]
  | noText entries responses files entry response content h hverified hnone ih => simp [ih]

/-- The files are no more than the entries. -/
theorem Collected.length_files (h : Collected entries responses files) :
    files.length ≤ entries.length := by
  induction h with
  | none => exact le_rfl
  | file entries responses files entry response file h hverified hpath hsha hdigest htext hclean
      ih =>
      simp only [List.length_append, List.length_singleton]
      omega
  | noText entries responses files entry response content h hverified hnone ih =>
      simp only [List.length_append, List.length_singleton]
      omega

/-- Their texts are no larger than the entries say. -/
theorem Collected.total_files (h : Collected entries responses files) :
    Greedy.total (fun file => (textBytes file).length) files ≤ Greedy.total sizeOf entries := by
  induction h with
  | none => exact le_rfl
  | file entries responses files entry response file h hverified hpath hsha hdigest htext hclean
      ih =>
      have hsize : sizeOf entry = (textBytes file).length := by
        unfold sizeOf
        rw [hverified.size]
        rfl
      simp only [Greedy.total_append, Greedy.total_cons, Greedy.total_nil]
      omega
  | noText entries responses files entry response content h hverified hnone ih =>
      rw [Greedy.total_append]
      omega

omit [SourceLibraries] [Hashlib] in
/-- A decoded text has the bytes that it was decoded from. -/
theorem decodeText_bytes {content : List Byte} {text : String}
    (h : decodeText content = some text) : utf8 (pyStr text) = content := by
  obtain ⟨points, hdecoded, h⟩ := Option.bind_eq_some_iff.mp h
  split at h
  · rename_i hencodable
    rw [← Option.some.inj h, ← utf8_decodeUtf8 hdecoded]
    congr 1
    unfold pyStr pyText
    rw [String.toList_ofList, List.map_map]
    refine (List.map_congr_left fun c hc => ?_).trans (List.map_id points)
    have hscalar := List.all_eq_true.mp hencodable c hc
    have hvalid : c.val.isValidChar := by
      have hbound := c.isLt
      simp only [Bool.or_eq_true, decide_eq_true_eq] at hscalar
      unfold Nat.isValidChar
      omega
    refine Fin.ext ?_
    show (Char.ofNat c.val).toNat = c.val
    unfold Char.ofNat
    rw [dif_pos hvalid]
    rfl
  · cases h

end Evidence

/-! ## 4. The parts of a reading -/

section Parts

variable [SourceLibraries] {r : Reader} {repository question token : String}
  {owner name : List Char} {v : Visit}

/-- The token of a reading is licensed, and nothing but the time was asked with it. -/
theorem authorizedTransport_follows (hnamed : ownerAndName repository = some (owner, name)) :
    (r.visits repository question).Follows .fresh (r.authorizedTransport repository)
      fun result v => ∀ token, result = .ok token →
        repository ∈ r.repositories ∧ Licensed name v token ∧
          v.metadata = none ∧ v.tree = none ∧ v.contents = [] := by
  unfold Reader.authorizedTransport
  refine follows_checked (fun _ h => by cases h) fun hallowed => ?_
  refine ⟨⟨rfl, rfl, hallowed⟩, fun answer => ?_⟩
  cases answer with
  | error error => exact fun _ h => by cases h
  | ok granted =>
      refine follows_checked (fun _ h => by cases h) fun hscoped => ?_
      refine ⟨⟨rfl, Option.some_ne_none _, rfl⟩, fun now => ?_⟩
      refine follows_computed (fun _ _ h => by cases h) fun soon hsoon => ?_
      refine follows_checked (fun _ h => by cases h) fun hlasts => ?_
      intro token htoken
      cases htoken
      rw [ownerAndName_last hnamed] at hscoped
      have hmoment : soon = now.micros + 30 * micro := by
        unfold nearExpiry at hsoon
        split at hsoon
        · exact (Except.ok.inj hsoon).symm
        · cases hsoon
      rw [hmoment] at hlasts
      exact ⟨hallowed, ⟨rfl, granted, now, rfl, rfl, rfl, hscoped, hlasts⟩, rfl, rfl, rfl⟩

theorem readMetadata_follows (hnamed : ownerAndName repository = some (owner, name))
    (hlicensed : Licensed name v token)
    (hopen : v.metadata = none ∧ v.tree = none ∧ v.contents = []) :
    (r.visits repository question).Follows v (readMetadata repository owner name token)
      fun result v' => ∀ metadata, result = .ok metadata →
        v' = { v with metadata := some metadata } ∧
          casefoldText metadata.fullName = casefoldText repository := by
  unfold readMetadata
  refine ⟨⟨owner, name, hnamed, hlicensed, hopen.1, hopen.2.1, hopen.2.2, rfl⟩, fun answer => ?_⟩
  cases answer with
  | error error => exact fun _ h => by cases h
  | ok metadata =>
      refine follows_checked (fun _ h => by cases h) fun hname => ?_
      refine follows_checked (fun _ h => by cases h) fun _ => ?_
      intro value hvalue
      cases hvalue
      exact ⟨rfl, hname⟩

/-- The bytes that are fetched for an entry are the bytes that its response holds. -/
theorem Reader.fetchContent_follows {entry : GitHubTreeEntry} {address : String}
    (hnamed : ownerAndName repository = some (owner, name)) (hlicensed : Licensed name v token)
    (haddressed : r.Addressed question owner name v address .content) :
    (r.visits repository question).Follows v (r.fetchContent token address entry)
      fun result v' => ∀ content, result = .ok content → ∃ response,
        v' = { v with contents := v.contents ++ [response] } ∧ Verified entry response content := by
  unfold Reader.fetchContent
  refine ⟨⟨owner, name, hnamed, hlicensed, haddressed⟩, fun answer => ?_⟩
  cases answer with
  | error error => exact fun _ h => by cases h
  | ok response =>
      refine follows_checked (fun _ h => by cases h) fun hidentity => ?_
      refine follows_checked (fun _ h => by cases h) fun hsize => ?_
      refine follows_computed (fun _ _ h => by cases h) fun content hcontent => ?_
      refine follows_checked (fun _ h => by cases h) fun hwhole => ?_
      refine follows_checked (fun _ h => by cases h) fun hblob => ?_
      intro value hvalue
      cases hvalue
      have hletters : strictBase64 (withoutBlanks response.content) = some content := by
        split at hcontent
        · cases hcontent
        · rename_i hsome
          rw [hsome, Except.ok.inj hcontent]
      refine ⟨response, rfl, hidentity.1, hidentity.2, ?_, hletters, hwhole.2, ?_⟩
      · rw [hwhole.1, hsize.1]
      · rw [hblob, hidentity.2]

variable [Hashlib]

omit [SourceLibraries] in
theorem sourceFile_ok {path sha : String} {content : List Byte} {text : String}
    {file : RepositorySourceFile} (h : sourceFile path sha content text = .ok file) :
    file = ⟨path, sha, Hashlib.sha256 content, text⟩ ∧ text ≠ "" := by
  unfold sourceFile at h
  obtain ⟨hchecked, h⟩ := Except.seq_ok.mp h
  refine ⟨(Except.ok.inj h).symm, fun hempty => ?_⟩
  have hlength := (guardThat_ok.mp hchecked).2.2.1
  rw [hempty] at hlength
  exact absurd hlength (by decide)

/-- A file that is made of a response goes to the files of the entries before it. -/
theorem Collected.read {entries : List GitHubTreeEntry} {responses : List GitHubContentResponse}
    {files : List RepositorySourceFile} {entry : GitHubTreeEntry} {response : GitHubContentResponse}
    {content : List Byte} {text : String} {file : RepositorySourceFile}
    (h : Collected entries responses files) (hverified : Verified entry response content)
    (htext : decodeText content = some text) (hclean : ¬ CredentialLike text)
    (hfile : sourceFile entry.path entry.sha content text = .ok file) :
    Collected (entries ++ [entry]) (responses ++ [response]) (files ++ [file]) := by
  obtain ⟨rfl, hnonempty⟩ := sourceFile_ok hfile
  have hbytes := decodeText_bytes htext
  refine .file _ _ _ entry response _ h ?_ rfl rfl ?_ hnonempty hclean
  · unfold textBytes
    rw [hbytes]
    exact hverified
  · unfold textBytes
    rw [hbytes]

/-- **The loop**: whatever entries are left, it asks for one after the other, and ends with the
files of all of them; neither bound cuts it short. -/
theorem Reader.fetchSources_follows {metadata : GitHubRepositoryMetadata}
    {tree : GitHubTreeResponse} (hnamed : ownerAndName repository = some (owner, name))
    (hwhole : tree.truncated = false) (rest : List GitHubTreeEntry) :
    ∀ (v : Visit) (done : List GitHubTreeEntry) (sourceFiles : List RepositorySourceFile)
      (totalBytes : ℕ), Licensed name v token → v.metadata = some metadata → v.tree = some tree →
      r.selectSources tree.tree question = done ++ rest →
      Collected done v.contents sourceFiles → totalBytes ≤ Greedy.total sizeOf done →
      (r.visits repository question).Follows v
        (r.fetchSources token
          (fun entry => contentPath owner name metadata.defaultBranch entry.path) rest sourceFiles
          totalBytes)
        fun result v' => ∀ files, result = .ok files →
          v' = { v with contents := v'.contents } ∧
            Collected (r.selectSources tree.tree question) v'.contents files := by
  induction rest with
  | nil =>
      intro v done sourceFiles totalBytes _ _ _ hselected hcollected _ files hfiles
      cases hfiles
      rw [hselected, List.append_nil]
      exact ⟨rfl, hcollected⟩
  | cons entry rest ih =>
      intro v done sourceFiles totalBytes hlicensed hmetadata htree hselected hcollected htotal
      have hmem : entry ∈ r.selectSources tree.tree question := by
        rw [hselected]
        exact List.mem_append_right _ List.mem_cons_self
      have hadmissible := (r.mem_selected hmem).2
      obtain ⟨size, hsize, hbound⟩ := hadmissible.sized
      have hsizeOf : sizeOf entry = size := by
        unfold sizeOf
        rw [hsize]
        rfl
      have hhere : done ++ entry :: rest = (done ++ [entry]) ++ rest := by simp
      unfold Reader.fetchSources
      rw [if_neg (by rw [hsize, hsizeOf]; simp; omega)]
      refine Follows.seq (r.fetchContent_follows hnamed hlicensed ?_)
        (fun error v' _ _ h => by cases h) fun content v' hcontent => ?_
      · refine ⟨metadata, tree, entry, hmetadata, htree, hwhole, ?_, rfl,
          content_below hnamed hadmissible.below⟩
        rw [hselected, hcollected.length_responses, List.getElem?_append_right le_rfl,
          Nat.sub_self]
        rfl
      · obtain ⟨response, rfl, hverified⟩ := hcontent content rfl
        have hlicensed' : Licensed name { v with contents := v.contents ++ [response] } token :=
          hlicensed
        cases htext : decodeText content with
        | none =>
            refine (ih _ (done ++ [entry]) sourceFiles totalBytes hlicensed' hmetadata htree
              (hhere ▸ hselected) (.noText _ _ _ _ _ content hcollected hverified htext)
              ?_).weaken fun result v' h => h
            rw [Greedy.total_append]
            omega
        | some text =>
            have hlength : content.length = sizeOf entry := by
              unfold sizeOf
              rw [hverified.size]
              rfl
            have hroom := r.selected_total tree.tree question
            have hcount := r.selected_length tree.tree question
            have hfiles := hcollected.length_files
            rw [hselected] at hroom hcount
            simp only [Greedy.total_append, Greedy.total_cons] at hroom
            simp only [List.length_append, List.length_cons] at hcount
            refine follows_checked (fun _ h => by cases h) fun hclean => ?_
            rw [if_neg (by omega)]
            refine follows_computed (fun _ _ h => by cases h) fun file hfile => ?_
            have hlater := hcollected.read hverified htext hclean hfile
            by_cases hfull : r.maxFiles ≤ sourceFiles.length + 1
            · have hlast : rest = [] := List.eq_nil_of_length_eq_zero (by omega)
              rw [if_pos hfull]
              intro files hreturned
              cases hreturned
              rw [hselected, hhere, hlast, List.append_nil]
              exact ⟨rfl, hlater⟩
            · rw [if_neg hfull]
              refine ih _ (done ++ [entry]) _ _ hlicensed' hmetadata htree (hhere ▸ hselected)
                hlater ?_
              simp only [Greedy.total_append, Greedy.total_cons, Greedy.total_nil]
              omega

end Parts

/-! ## 5. A reading -/

/-- What was answered, and the context that is made of it. -/
structure ReadBack [SourceLibraries] [Hashlib] (r : Reader) (repository question : String)
    (v : Visit) (context : RepositoryCodeContext) : Prop where
  allowed : repository ∈ r.repositories
  named : context.repository = repository
  answered : ∃ metadata tree, v.metadata = some metadata ∧ v.tree = some tree ∧
    casefoldText metadata.fullName = casefoldText repository ∧ tree.truncated = false ∧
    context.defaultBranch = metadata.defaultBranch ∧ context.treeSha = tree.sha ∧
    Collected (r.selectSources tree.tree question) v.contents context.files
  nonempty : context.files ≠ []
  files : context.files.length ≤ r.maxFiles
  bytes : Greedy.total (fun file => (textBytes file).length) context.files ≤ r.maxTotalBytes
  digest : context.contextDigest = (contextJson context.repository context.defaultBranch
    context.treeSha context.files).contentDigest

/-- **The reader**: whatever the broker, the clock and GitHub answer, it asks for one token, of a
repository of the allowlist, and reads the time once; with that token, if it is scoped to the
repository and lasts for more than half a minute from then, it asks only for this repository, its
tree and the selected files, once each and in their order, at addresses below the repository that
its files cannot lead out of, and for nothing after an answer that raises. A context that it
returns holds every selected entry whose bytes are text, and these bytes have the size and the blob
SHA that the tree gave, are text without credentials, and keep to both bounds. -/
theorem sources_faithful [SourceLibraries] [Hashlib] (r : Reader) (repository question : String) :
    ((r.visits repository question).Follows .fresh (r.readCodebaseContext repository question)
      fun result v => ∀ context, result = .ok context → ReadBack r repository question v context) ∧
    ((r.visits repository question).Follows .fresh (r.read repository)
      fun result v => ∀ metadata, result = .ok metadata → repository ∈ r.repositories ∧
        v.metadata = some metadata ∧ casefoldText metadata.fullName = casefoldText repository) := by
  refine ⟨?_, ?_⟩
  · unfold Reader.readCodebaseContext
    refine follows_checked (fun _ h => by cases h) fun hquestion => ?_
    cases hnamed : ownerAndName repository with
    | none => exact fun _ h => by cases h
    | some named =>
        obtain ⟨owner, name⟩ := named
        refine Follows.seq (authorizedTransport_follows hnamed) (fun _ _ _ _ h => by cases h)
          fun token v hgranted => ?_
        obtain ⟨hallowed, hlicensed, hopen⟩ := hgranted token rfl
        refine Follows.seq (readMetadata_follows hnamed hlicensed hopen)
          (fun _ _ _ _ h => by cases h) fun metadata v' hread => ?_
        obtain ⟨rfl, hname⟩ := hread metadata rfl
        refine ⟨⟨owner, name, hnamed, hlicensed, metadata, rfl, hopen.2.1, hopen.2.2, rfl⟩,
          fun answer => ?_⟩
        cases answer with
        | error error => exact fun _ h => by cases h
        | ok tree =>
            refine follows_checked (fun _ h => by cases h) fun hwhole => ?_
            refine Follows.seq (r.fetchSources_follows hnamed
              hwhole _ _ [] [] 0 hlicensed rfl rfl rfl ?_ (Nat.zero_le _))
              (fun _ _ _ _ h => by cases h) fun files v'' hfiles => ?_
            · show Collected [] v.contents []
              rw [hopen.2.2]
              exact .none
            · obtain ⟨hsame, hcollected⟩ := hfiles files rfl
              refine follows_checked (fun _ h => by cases h) fun hnonempty => ?_
              intro context hcontext
              cases hcontext
              refine ⟨hallowed, rfl, ⟨metadata, tree, congrArg Visit.metadata hsame,
                congrArg Visit.tree hsame, hname, hwhole, rfl, rfl, hcollected⟩, hnonempty, ?_, ?_,
                rfl⟩
              · exact hcollected.length_files.trans (r.selected_length tree.tree question)
              · exact hcollected.total_files.trans (r.selected_total tree.tree question)
  · unfold Reader.read
    cases hnamed : ownerAndName repository with
    | none => exact fun _ h => by cases h
    | some named =>
        obtain ⟨owner, name⟩ := named
        refine Follows.seq (authorizedTransport_follows hnamed) (fun _ _ _ _ h => by cases h)
          fun token v hgranted => ?_
        obtain ⟨hallowed, hlicensed, hopen⟩ := hgranted token rfl
        refine (readMetadata_follows hnamed hlicensed hopen).weaken
          fun result v' hread metadata h => ?_
        obtain ⟨rfl, hname⟩ := hread metadata h
        exact ⟨hallowed, rfl, hname⟩

end NokincFactory.RepositoryReader
