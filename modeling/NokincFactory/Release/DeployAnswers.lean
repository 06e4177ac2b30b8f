/-
  File:      NokincFactory/Release/DeployAnswers.lean
  Subject:   What the answers of a deployment have, where the script goes on with them.

  * `valueAt_setMember`, `valueAt_popMember`: fields that are set and dropped;
  * `Identified`, `Registry`, `CleanScan`, `Unfinished`, `RollbackService`, …: an answer of each
    command;
  * `readRepository_ok`, `validateScanResult_ok`, `scanAnswer_ok`, …: the checks give it;
  * `Carried`, `taskDefinitionForImage_ok`: what is registered, against the current definition.
-/
import NokincFactory.Release.DeployPilot

namespace NokincFactory.DeployPilot

/-! ## 1. Fields -/

theorem pyStr_inj {a b : String} : pyStr a = pyStr b ↔ a = b :=
  ⟨fun h => String.toList_injective (pyText_injective h), congrArg pyStr⟩

theorem valueAt_cons (member : PyStr × Loaded) (members : Members) (key : PyStr) :
    valueAt (member :: members) key =
      if member.1 = key then some member.2 else valueAt members key := by
  unfold valueAt
  by_cases h : member.1 = key
  · rw [if_pos h, List.find?_cons_of_pos (by simpa using h)]
    rfl
  · rw [if_neg h, List.find?_cons_of_neg (by simpa using h)]

theorem valueAt_setMember (members : Members) (key : PyStr) (value : Loaded) (other : PyStr) :
    valueAt (setMember members key value) other =
      if key = other then some value else valueAt members other := by
  induction members with
  | nil => rw [setMember, valueAt_cons]
  | cons member members ih =>
    rw [setMember]
    by_cases h : member.1 = key
    · rw [if_pos h, valueAt_cons, valueAt_cons, h]
      by_cases hkey : key = other
      · rw [if_pos hkey, if_pos hkey]
      · rw [if_neg hkey, if_neg hkey, if_neg hkey]
    · rw [if_neg h, valueAt_cons, valueAt_cons, ih]
      by_cases hother : member.1 = other
      · rw [if_pos hother, if_neg fun hkey => h (hother.trans hkey.symm), if_pos hother]
      · rw [if_neg hother, if_neg hother]

theorem valueAt_popMember (members : Members) (key other : PyStr) :
    valueAt (popMember members key) other =
      if key = other then none else valueAt members other := by
  induction members with
  | nil => exact (ite_self _).symm
  | cons member members ih =>
    rw [popMember] at ih
    rw [popMember]
    by_cases h : member.1 = key
    · rw [List.filter_cons_of_neg (by simpa using h), ih, valueAt_cons, h]
      by_cases hkey : key = other
      · rw [if_pos hkey, if_pos hkey]
      · rw [if_neg hkey, if_neg hkey, if_neg hkey]
    · rw [List.filter_cons_of_pos (by simpa using h), valueAt_cons, valueAt_cons, ih]
      by_cases hother : member.1 = other
      · rw [if_pos hother, if_neg fun hkey => h (hother.trans hkey.symm), if_pos hother]
      · rw [if_neg hother, if_neg hother]

/-- Dropping some fields. -/
theorem valueAt_popAll (keys : List PyStr) (members : Members) (other : PyStr) :
    valueAt (keys.foldl popMember members) other =
      if other ∈ keys then none else valueAt members other := by
  induction keys generalizing members with
  | nil => rw [if_neg List.not_mem_nil]; rfl
  | cons key keys ih =>
    rw [List.foldl_cons, ih, valueAt_popMember]
    by_cases hkeys : other ∈ keys
    · rw [if_pos hkeys, if_pos (List.mem_cons_of_mem key hkeys)]
    · by_cases hkey : key = other
      · rw [if_neg hkeys, if_pos hkey, if_pos (List.mem_cons.mpr (.inl hkey.symm))]
      · rw [if_neg hkeys, if_neg hkey, if_neg]
        intro hmem
        exact (List.mem_cons.mp hmem).elim (fun h => hkey h.symm) hkeys

theorem mem_of_valueAt {members : Members} {key : PyStr} {value : Loaded}
    (h : valueAt members key = some value) : (key, value) ∈ members := by
  obtain ⟨member, hfound, hvalue⟩ := Option.map_eq_some_iff.mp h
  have hkey : member.1 = key := by simpa using List.find?_some hfound
  rw [← hkey, ← hvalue]
  exact List.mem_of_find?_eq_some hfound

theorem isText_iff {value : Option Loaded} {text : PyStr} :
    isText value text = true ↔ value = some (.str text) := by
  unfold isText
  split
  · rw [decide_eq_true_iff, Option.some.injEq, Loaded.str.injEq]
  · next h => exact ⟨fun hfalse => (nomatch hfalse), fun heq => absurd heq (h text)⟩

theorem isTrue_iff {value : Option Loaded} : isTrue value = true ↔ value = some (.bool true) := by
  unfold isTrue
  split
  · exact ⟨fun _ => rfl, fun _ => rfl⟩
  · next h => exact ⟨fun hfalse => (nomatch hfalse), fun heq => absurd heq h⟩

theorem mapping_ok {value : Option Loaded} {label : String} {members : Members} :
    mapping value label = .ok members ↔ value = some (.dict members) := by
  unfold mapping
  split
  · rw [Except.ok.injEq, Option.some.injEq, Loaded.dict.injEq]
  · next h => exact ⟨fun hfalse => (nomatch hfalse), fun heq => absurd heq (h members)⟩

theorem mappings_ok {values : List Loaded} {label : String} {objects : List Members}
    (h : (values.mapM fun value => mapping (some value) label) = .ok objects) :
    values = objects.map .dict := by
  replace h := List.mapM_ok.mp h
  induction h with
  | nil => rfl
  | cons hfirst _ ih => rw [List.map_cons, ← ih, ← Option.some.inj (mapping_ok.mp hfirst)]

theorem requiredString_ok {value : Members} {key : String} {text : PyStr}
    (h : requiredString value key = .ok text) : get value key = some (.str text) ∧ text ≠ [] := by
  unfold requiredString at h
  split at h
  case h_1 c rest hget =>
    cases h
    exact ⟨hget, List.cons_ne_nil c rest⟩
  case h_2 => cases h

/-! ## 2. Answers -/

section Answers

variable (levels : ℕ) (config : DeploymentConfig)

/-- The account is the pilot's, and not its root. -/
def Identified (text : PyStr) : Prop :=
  ∃ identity arn, loadJson levels text = .ok identity ∧
    get identity "Account" = some (.str config.accountId) ∧ get identity "Arn" = some (.str arn) ∧
      ¬ pyStr ":root" <:+ arn

/-- One repository, of the account and the region, with immutable tags and scans on push. -/
def Registry (uri text : PyStr) : Prop :=
  ∃ response repository scan, loadJson levels text = .ok response ∧
    get response "repositories" = some (.list [.dict repository]) ∧
    get repository "imageTagMutability" = some (.str (pyStr "IMMUTABLE")) ∧
    get repository "imageScanningConfiguration" = some (.dict scan) ∧
    get scan "scanOnPush" = some (.bool true) ∧
    get repository "repositoryUri" = some (.str uri) ∧ registryPrefix config <+: uri

/-- No image has the tag yet. -/
def NewTag (text : PyStr) : Prop :=
  ∃ response existing, loadJson levels text = .ok response ∧
    get response "imageIds" = some (.list existing) ∧ ∀ imageId ∈ existing, ∃ identity,
      imageId = .dict identity ∧ get identity "imageTag" ≠ some (.str config.imageTag)

/-- One image has the tag, with the digest. -/
def PushedImage (digest text : PyStr) : Prop :=
  ∃ response image, loadJson levels text = .ok response ∧
    get response "imageDetails" = some (.list [.dict image]) ∧
    get image "imageDigest" = some (.str digest) ∧ digestPattern digest = true

def blocking : List PyStr := blockingSeverities.map pyStr

/-- Every row has a severity that is known and does not block. -/
def CleanRows (rows : List Loaded) : Prop :=
  ∀ row ∈ rows, ∃ finding severity, row = .dict finding ∧
    get finding "severity" = some (.str severity) ∧ severity ∈ knownSeverities ∧
      severity ∉ blocking

/-- What a severity counts: a number where it is known, nothing where it blocks or is not known. -/
structure CleanCount (severity : PyStr) (value : Loaded) : Prop where
  known : severity ∈ knownSeverities → ∃ count, value = .int count ∧ 0 ≤ count
  blocking : severity ∈ blocking → value = .int 0
  unknown : severity ∉ knownSeverities → isZero value = true

/-- A complete scan without a finding that blocks. -/
def CleanScan (text : PyStr) : Prop :=
  ∃ scan status findings rows counts, loadJson levels text = .ok scan ∧
    get scan "imageScanStatus" = some (.dict status) ∧
    get status "status" = some (.str (pyStr "COMPLETE")) ∧
    get scan "imageScanFindings" = some (.dict findings) ∧
    get findings "findings" = some (.list rows) ∧
    get findings "findingSeverityCounts" = some (.dict counts) ∧ CleanRows rows ∧
      ∀ severity value, valueAt counts severity = some value → CleanCount severity value

/-- A query of the poll that is followed by another one: there is no scan yet, or one that does
not say that it is complete. -/
def Unfinished (answer : Except DeployError PyStr) : Prop :=
  answer = .error (.command (some (pyStr "ScanNotFoundException"))) ∨
    ∃ text scan status, answer = .ok text ∧ loadJson levels text = .ok scan ∧
      get scan "imageScanStatus" = some (.dict status) ∧
      (get status "status" = none ∨ get status "status" = some .none ∨
        get status "status" = some (.str (pyStr "IN_PROGRESS")) ∨
        get status "status" = some (.str (pyStr "PENDING")))

/-- One active service without failures, with rollback by its circuit breaker. -/
def RollbackService (previous text : PyStr) : Prop :=
  ∃ response service configuration breaker, loadJson levels text = .ok response ∧
    (get response "failures").any truthy = false ∧
    get response "services" = some (.list [.dict service]) ∧
    get service "status" = some (.str (pyStr "ACTIVE")) ∧
    get service "deploymentConfiguration" = some (.dict configuration) ∧
    get configuration "deploymentCircuitBreaker" = some (.dict breaker) ∧
    get breaker "enable" = some (.bool true) ∧ get breaker "rollback" = some (.bool true) ∧
    get service "taskDefinition" = some (.str previous) ∧ previous ≠ []

/-- The definition that the service has now. -/
def Described (current : Members) (text : PyStr) : Prop :=
  ∃ response, loadJson levels text = .ok response ∧
    get response "taskDefinition" = some (.dict current)

/-- The definition was registered under a name. -/
def Registered (arn text : PyStr) : Prop :=
  ∃ response task, loadJson levels text = .ok response ∧
    get response "taskDefinition" = some (.dict task) ∧
    get task "taskDefinitionArn" = some (.str arn) ∧ arn ≠ []

end Answers

section Read

variable {levels : ℕ} {config : DeploymentConfig} {text : PyStr} {response : Members}

theorem checkIdentity_ok (hjson : loadJson levels text = .ok response)
    (h : checkIdentity config response = .ok ()) : Identified levels config text := by
  unfold checkIdentity at h
  split at h
  case h_1 arn harn =>
    obtain ⟨haccount, h⟩ := Except.seq_ok.mp h
    exact ⟨response, arn, hjson, isText_iff.mp (guardThat_ok.mp haccount), harn,
      guardThat_ok.mp h⟩
  case h_2 => cases h

theorem validateRegistry_ok {repository : Members}
    (h : validateRegistryConfiguration repository = .ok ()) :
    get repository "imageTagMutability" = some (.str (pyStr "IMMUTABLE")) ∧ ∃ scan,
      get repository "imageScanningConfiguration" = some (.dict scan) ∧
        get scan "scanOnPush" = some (.bool true) := by
  unfold validateRegistryConfiguration at h
  obtain ⟨htags, h⟩ := Except.seq_ok.mp h
  split at h
  case h_1 scan hscan =>
    exact ⟨isText_iff.mp (guardThat_ok.mp htags), scan, hscan, isTrue_iff.mp (guardThat_ok.mp h)⟩
  case h_2 => cases h

theorem readRepository_ok {uri : PyStr} (hjson : loadJson levels text = .ok response)
    (h : readRepository config response = .ok uri) : Registry levels config uri text := by
  unfold readRepository at h
  split at h
  case h_1 value hvalue =>
    obtain ⟨repository, hmapping, h⟩ := Except.bind_ok.mp h
    obtain ⟨hregistry, h⟩ := Except.seq_ok.mp h
    obtain ⟨htags, scan, hscan, hpush⟩ := validateRegistry_ok hregistry
    split at h
    case h_1 found huri =>
      obtain ⟨hfront, h⟩ := Except.seq_ok.mp h
      cases h
      rw [Option.some.inj (mapping_ok.mp hmapping)] at hvalue
      exact ⟨response, repository, scan, hjson, hvalue, htags, hscan, hpush, huri,
        guardThat_ok.mp hfront⟩
    case h_2 => cases h
  case h_2 => cases h

theorem checkTags_ok (hjson : loadJson levels text = .ok response)
    (h : checkTags config response = .ok ()) : NewTag levels config text := by
  unfold checkTags at h
  split at h
  case h_1 existing hexisting =>
    refine ⟨response, existing, hjson, hexisting, fun imageId hmem => ?_⟩
    obtain ⟨identity, hmapping, htag⟩ := Except.bind_ok.mp (List.forM_ok.mp h imageId hmem)
    refine ⟨identity, Option.some.inj (mapping_ok.mp hmapping), fun heq => ?_⟩
    have hsame := isText_iff.mpr heq
    rw [guardThat_ok.mp htag] at hsame
    cases hsame
  case h_2 => cases h

theorem readDigest_ok {digest : PyStr} (hjson : loadJson levels text = .ok response)
    (h : readDigest response = .ok digest) : PushedImage levels digest text := by
  unfold readDigest at h
  split at h
  case h_1 value hvalue =>
    obtain ⟨image, hmapping, h⟩ := Except.bind_ok.mp h
    split at h
    case h_1 found hdigest =>
      obtain ⟨hpattern, h⟩ := Except.seq_ok.mp h
      cases h
      rw [Option.some.inj (mapping_ok.mp hmapping)] at hvalue
      exact ⟨response, image, hjson, hvalue, hdigest, guardThat_ok.mp hpattern⟩
    case h_2 => cases h
  case h_2 => cases h

theorem rowSeverity_ok {row : Loaded} {severity : PyStr} (h : rowSeverity row = .ok severity) :
    ∃ finding, row = .dict finding ∧ get finding "severity" = some (.str severity) ∧
      severity ∈ knownSeverities := by
  unfold rowSeverity at h
  obtain ⟨finding, hmapping, h⟩ := Except.bind_ok.mp h
  split at h
  case h_1 found hfound =>
    obtain ⟨hknown, h⟩ := Except.seq_ok.mp h
    cases h
    exact ⟨finding, Option.some.inj (mapping_ok.mp hmapping), hfound, guardThat_ok.mp hknown⟩
  case h_2 => cases h

/-- A severity that blocks is neither reported nor in a row. -/
theorem checkBlocking_ok {counts : Members} {rows : List PyStr} {severity : String}
    (h : checkBlocking counts rows severity = .ok ()) : pyStr severity ∉ rows ∧
      ∀ value, valueAt counts (pyStr severity) = some value → value = .int 0 := by
  unfold checkBlocking at h
  obtain ⟨reported, hreported, h⟩ := Except.bind_ok.mp h
  have hnone := guardThat_ok.mp h
  refine ⟨fun hmem => ?_, fun value hvalue => ?_⟩
  · have hcount := List.count_pos_iff.mpr hmem
    omega
  · rw [get, hvalue] at hreported
    cases value with
    | int count =>
      rw [reportedCount] at hreported
      by_cases hcount : 0 ≤ count
      · rw [if_pos hcount] at hreported
        cases hreported
        have hzero : reported = 0 := by omega
        rw [hzero]
      · rw [if_neg hcount] at hreported
        cases hreported
    | _ => cases hreported

theorem checkCount_ok {entry : PyStr × Loaded} (h : checkCount entry = .ok ()) :
    (entry.1 ∈ knownSeverities → ∃ count, entry.2 = .int count ∧ 0 ≤ count) ∧
      (entry.1 ∉ knownSeverities → isZero entry.2 = true) := by
  unfold checkCount at h
  by_cases hknown : entry.1 ∈ knownSeverities
  · rw [if_pos hknown] at h
    refine ⟨fun _ => ?_, fun hn => absurd hknown hn⟩
    split at h
    case h_1 count hcount => exact ⟨count, hcount, guardThat_ok.mp h⟩
    case h_2 => cases h
  · rw [if_neg hknown] at h
    exact ⟨fun hk => absurd hk hknown, fun _ => guardThat_ok.mp h⟩

theorem validateScanResult_ok (hjson : loadJson levels text = .ok response)
    (h : validateScanResult response = .ok ()) : CleanScan levels text := by
  unfold validateScanResult at h
  obtain ⟨status, hstatus, h⟩ := Except.bind_ok.mp h
  obtain ⟨hcomplete, h⟩ := Except.seq_ok.mp h
  obtain ⟨findings, hfindings, h⟩ := Except.bind_ok.mp h
  split at h
  case h_1 rows counts hrows hcounts =>
    obtain ⟨severities, hseverities, h⟩ := Except.bind_ok.mp h
    obtain ⟨hchecked, hblocking⟩ := Except.seq_ok.mp h
    have hall := List.mapM_ok.mp hseverities
    have hclear : ∀ severity ∈ blocking, severity ∉ severities ∧
        ∀ value, valueAt counts severity = some value → value = .int 0 := by
      intro severity hmem
      obtain ⟨name, hname, rfl⟩ := List.mem_map.mp hmem
      exact checkBlocking_ok (List.forM_ok.mp hblocking name hname)
    refine ⟨response, status, findings, rows, counts, hjson, mapping_ok.mp hstatus,
      isText_iff.mp (guardThat_ok.mp hcomplete), mapping_ok.mp hfindings, hrows, hcounts, ?_, ?_⟩
    · intro row hmem
      obtain ⟨severity, hin, hrow⟩ := exists_of_forall₂ hall.flip hmem
      obtain ⟨finding, hfinding, hseverity, hknown⟩ := rowSeverity_ok hrow
      exact ⟨finding, severity, hfinding, hseverity, hknown, fun hblock => (hclear _ hblock).1 hin⟩
    · intro severity value hvalue
      have hentry := checkCount_ok (List.forM_ok.mp hchecked _ (mem_of_valueAt hvalue))
      exact ⟨hentry.1, fun hblock => (hclear severity hblock).2 value hvalue, hentry.2⟩
  case h_2 => cases h

theorem isWaiting_iff {status : Option Loaded} : isWaiting status = true ↔
    status = none ∨ status = some .none ∨ status = some (.str (pyStr "IN_PROGRESS")) ∨
      status = some (.str (pyStr "PENDING")) := by
  unfold isWaiting
  split
  case h_1 => exact ⟨fun _ => .inl rfl, fun _ => rfl⟩
  case h_2 => exact ⟨fun _ => .inr (.inl rfl), fun _ => rfl⟩
  case h_3 hnone hnull =>
    rw [Bool.or_eq_true, isText_iff, isText_iff]
    exact ⟨fun h => .inr (.inr h), fun h => h.elim (absurd · hnone) fun h =>
      h.elim (absurd · hnull) id⟩

/-- A query of the poll found a clean scan, or one that is not finished. -/
theorem readScan_ok {clean : Bool} (hjson : loadJson levels text = .ok response)
    (h : readScan response = .ok clean) :
    (clean = true ∧ CleanScan levels text) ∨ (clean = false ∧ Unfinished levels (.ok text)) := by
  unfold readScan at h
  obtain ⟨status, hstatus, h⟩ := Except.bind_ok.mp h
  dsimp only at h
  split at h
  · obtain ⟨hvalid, h⟩ := Except.seq_ok.mp h
    cases h
    exact .inl ⟨rfl, validateScanResult_ok hjson hvalid⟩
  · split at h
    · cases h
    · split at h
      case isTrue hwaiting =>
        cases h
        exact .inr ⟨rfl, .inr ⟨text, response, status, rfl, hjson, mapping_ok.mp hstatus,
          isWaiting_iff.mp hwaiting⟩⟩
      case isFalse => cases h

theorem scanAnswer_ok {answer : Except DeployError PyStr} {clean : Bool}
    (h : scanAnswer (answer >>= loadJson levels) = .ok clean) :
    (clean = true ∧ ∃ text, answer = .ok text ∧ CleanScan levels text) ∨
      (clean = false ∧ Unfinished levels answer) := by
  cases answer with
  | error error =>
    change scanAnswer (.error error) = .ok clean at h
    unfold scanAnswer at h
    split at h
    case h_1 heq => cases heq
    case h_2 code heq =>
      split at h
      case isTrue hcode =>
        cases h
        cases heq
        exact .inr ⟨rfl, .inl (by rw [hcode])⟩
      case isFalse => cases h
    case h_3 => cases h
  | ok text =>
    change scanAnswer (loadJson levels text) = .ok clean at h
    cases hjson : loadJson levels text with
    | ok scan =>
      rw [hjson] at h
      exact (readScan_ok hjson h).imp (fun hclean => ⟨hclean.1, text, rfl, hclean.2⟩) id
    | error error =>
      -- what does not parse is no failure of the command
      rw [hjson] at h
      unfold loadJson at hjson
      unfold mapping at hjson
      split at hjson
      · split at hjson
        · cases hjson
        · cases hjson
          cases h
      · cases hjson
        cases h
      · cases hjson
        cases h
      · cases hjson
        cases h

theorem service_ok {service : Members} {previous : PyStr}
    (hjson : loadJson levels text = .ok response) (hservice : singleService response = .ok service)
    (hrollback : requireRollback service = .ok ())
    (hprevious : requiredString service "taskDefinition" = .ok previous) :
    RollbackService levels previous text := by
  unfold singleService at hservice
  obtain ⟨hfailures, hservice⟩ := Except.seq_ok.mp hservice
  split at hservice
  case h_1 value hvalue =>
    obtain ⟨found, hmapping, hservice⟩ := Except.bind_ok.mp hservice
    obtain ⟨hactive, hservice⟩ := Except.seq_ok.mp hservice
    cases hservice
    rw [Option.some.inj (mapping_ok.mp hmapping)] at hvalue
    unfold requireRollback at hrollback
    obtain ⟨configuration, hconfiguration, hrollback⟩ := Except.bind_ok.mp hrollback
    obtain ⟨breaker, hbreaker, hrollback⟩ := Except.bind_ok.mp hrollback
    obtain ⟨henable, hback⟩ := guardThat_ok.mp hrollback
    exact ⟨response, service, configuration, breaker, hjson, guardThat_ok.mp hfailures, hvalue,
      isText_iff.mp (guardThat_ok.mp hactive), mapping_ok.mp hconfiguration,
      mapping_ok.mp hbreaker, isTrue_iff.mp henable, isTrue_iff.mp hback,
      requiredString_ok hprevious⟩
  case h_2 => cases hservice

end Read

/-! ## 3. Task definitions -/

/-- One field is set, and every other one as it was. -/
structure Updated (key : PyStr) (value : Loaded) (members updated : Members) : Prop where
  set : valueAt updated key = some value
  others : ∀ other, other ≠ key → valueAt updated other = valueAt members other

/-- One of the values is replaced, the only one of its kind. -/
def Replaced {α : Type} (kind : α → Prop) (change : α → α → Prop) (values updated : List α) :
    Prop :=
  ∃ before value value' after, values = before ++ value :: after ∧
    updated = before ++ value' :: after ∧ kind value ∧ change value value' ∧
      ∀ other ∈ before ++ after, ¬ kind other

/-- An environment variable that is the turn limit. -/
def LimitEntry (entry : Loaded) : Prop :=
  ∃ members, entry = .dict members ∧
    get members "name" = some (.str (pyStr "FACTORY_CHAT_MODEL_TURN_LIMIT"))

/-- The turn limit with another value. -/
def LimitChanged (limit : TurnLimit) (entry entry' : Loaded) : Prop :=
  ∃ members members', entry = .dict members ∧ entry' = .dict members' ∧
    Updated (pyStr "value") (.str limit.text) members members'

/-- A container with its image pinned, and its turn limit set where one is asked for. -/
structure Retargeted (image : PyStr) (limit : Option TurnLimit)
    (container container' : Members) : Prop where
  image : get container' "image" = some (.str image)
  others : ∀ key, key ≠ pyStr "image" → (limit ≠ none → key ≠ pyStr "environment") →
    valueAt container' key = valueAt container key
  limit : ∀ asked, limit = some asked → ∃ environment environment',
    get container "environment" = some (.list environment) ∧
      get container' "environment" = some (.list environment') ∧
        Replaced LimitEntry (LimitChanged asked) environment environment'

/-- What is registered for an image: the current definition without the fields of a response, with
the one target container retargeted. -/
structure Carried (config : DeploymentConfig) (image : PyStr) (current payload : Members) :
    Prop where
  dropped : ∀ key ∈ responseFields, valueAt payload key = none
  others : ∀ key, key ∉ responseFields → key ≠ pyStr "containerDefinitions" →
    valueAt payload key = valueAt current key
  containers : ∃ containers containers' : List Members,
    get current "containerDefinitions" = some (.list (containers.map .dict)) ∧
      get payload "containerDefinitions" = some (.list (containers'.map .dict)) ∧
        Replaced (fun container => get container "name" = some (.str config.containerName))
          (Retargeted image config.chatModelTurnLimit) containers containers'

theorem updated_setMember (members : Members) (key : PyStr) (value : Loaded) :
    Updated key value members (setMember members key value) := by
  refine ⟨?_, fun other hother => ?_⟩
  · rw [valueAt_setMember, if_pos rfl]
  · rw [valueAt_setMember, if_neg fun h => hother h.symm]

/-- A list with one value of a kind. -/
theorem single_split {α : Type} {p : α → Bool} {values : List α}
    (h : (values.filter p).length = 1) : ∃ before value after,
      values = before ++ value :: after ∧ p value = true ∧
        ∀ other ∈ before ++ after, p other = false := by
  obtain ⟨value, hvalue⟩ := List.length_eq_one_iff.mp h
  obtain ⟨before, after, hvalues, hbefore, hp, hafter⟩ := List.filter_eq_cons_iff.mp hvalue
  refine ⟨before, value, after, hvalues, hp, fun other hmem => ?_⟩
  rcases List.mem_append.mp hmem with hmem | hmem
  · exact Bool.eq_false_iff.mpr (hbefore other hmem)
  · exact Bool.eq_false_iff.mpr (List.filter_eq_nil_iff.mp hafter other hmem)

theorem isTurnLimit_iff {entry : Loaded} : isTurnLimit entry = true ↔ LimitEntry entry := by
  unfold isTurnLimit
  split
  case h_1 members =>
    rw [isText_iff]
    refine ⟨fun h => ⟨members, rfl, h⟩, fun h => ?_⟩
    obtain ⟨members', heq, hname⟩ := h
    cases heq
    exact hname
  case h_2 hno =>
    refine ⟨fun h => (nomatch h), fun h => ?_⟩
    obtain ⟨members, heq, -⟩ := h
    exact absurd heq (hno members)

theorem setLimitValue_other {limit : TurnLimit} {entry : Loaded} (h : isTurnLimit entry = false) :
    setLimitValue limit entry = entry := by
  unfold setLimitValue
  split
  · rw [if_neg (by rw [h]; exact Bool.false_ne_true)]
  · rfl

theorem setLimitValue_changed {limit : TurnLimit} {entry : Loaded} (h : isTurnLimit entry = true) :
    LimitChanged limit entry (setLimitValue limit entry) := by
  obtain ⟨members, rfl, -⟩ := isTurnLimit_iff.mp h
  rw [setLimitValue, if_pos h]
  exact ⟨members, _, rfl, rfl, updated_setMember _ _ _⟩

theorem environment_replaced {limit : TurnLimit} {environment : List Loaded}
    (h : (environment.filter isTurnLimit).length = 1) : Replaced LimitEntry (LimitChanged limit)
      environment (environment.map (setLimitValue limit)) := by
  obtain ⟨before, entry, after, hvalues, hentry, hothers⟩ := single_split h
  have hsame : ∀ values : List Loaded, (∀ other ∈ values, isTurnLimit other = false) →
      values.map (setLimitValue limit) = values := fun values hall =>
    (List.map_congr_left fun other hmem => setLimitValue_other (hall other hmem)).trans
      (List.map_id' values)
  refine ⟨before, entry, setLimitValue limit entry, after, hvalues, ?_, isTurnLimit_iff.mp hentry,
    setLimitValue_changed hentry, fun other hmem hlimit => ?_⟩
  · rw [hvalues, List.map_append, List.map_cons,
      hsame before fun other hmem => hothers other (List.mem_append_left _ hmem),
      hsame after fun other hmem => hothers other (List.mem_append_right _ hmem)]
  · have hyes := isTurnLimit_iff.mpr hlimit
    rw [hothers other hmem] at hyes
    cases hyes

theorem containerForImage_ok {image : PyStr} {limit : Option TurnLimit}
    {container container' : Members}
    (h : containerForImage image limit container = .ok container') :
    Retargeted image limit container container' := by
  have hpinned := updated_setMember container (pyStr "image") (.str image)
  unfold containerForImage at h
  cases limit with
  | none =>
    cases h
    exact ⟨hpinned.set, fun key hkey _ => hpinned.others key hkey, fun _ h => (nomatch h)⟩
  | some limit =>
    dsimp only at h
    unfold setTurnLimit at h
    obtain ⟨-, h⟩ := Except.seq_ok.mp h
    split at h
    case h_1 environment henvironment =>
      obtain ⟨hone, h⟩ := Except.seq_ok.mp h
      obtain ⟨-, h⟩ := Except.seq_ok.mp h
      cases h
      have hupdated := updated_setMember (setMember container (pyStr "image") (.str image))
        (pyStr "environment") (.list (environment.map (setLimitValue limit)))
      have hkept : valueAt (setMember container (pyStr "image") (.str image))
          (pyStr "environment") = valueAt container (pyStr "environment") :=
        hpinned.others _ (by simp [pyStr_inj])
      refine ⟨?_, fun key himage hkey => ?_, fun asked hasked => ?_⟩
      · exact (hupdated.others _ (by simp [pyStr_inj])).trans hpinned.set
      · exact (hupdated.others key (hkey (Option.some_ne_none limit))).trans
          (hpinned.others key himage)
      · cases hasked
        exact ⟨environment, _, hkept.symm.trans henvironment, hupdated.set,
          environment_replaced (guardThat_ok.mp hone)⟩
    case h_2 => cases h

/-- The containers, of which one is the target. -/
theorem containersForImage_ok {containerName image : PyStr} {limit : Option TurnLimit}
    {containers containers' : List Members}
    (hone : (containers.filter fun container =>
      isText (get container "name") containerName).length = 1)
    (h : containersForImage containerName image limit containers = .ok containers') :
    Replaced (fun container => get container "name" = some (.str containerName))
      (Retargeted image limit) containers containers' := by
  obtain ⟨before, target, after, hvalues, htarget, hothers⟩ := single_split hone
  have hsame : ∀ values values' : List Members,
      (∀ other ∈ values, isText (get other "name") containerName = false) →
      containersForImage containerName image limit values = .ok values' → values' = values := by
    intro values values' hall heach
    replace heach := List.mapM_ok.mp heach
    induction heach with
    | nil => rfl
    | cons hfirst _ ih =>
      rw [if_neg (by rw [hall _ List.mem_cons_self]; exact Bool.false_ne_true)] at hfirst
      cases hfirst
      rw [ih fun other hmem => hall other (List.mem_cons_of_mem _ hmem)]
  rw [containersForImage, hvalues, List.mapM_append, List.mapM_cons, if_pos htarget] at h
  obtain ⟨before', hbefore, h⟩ := Except.bind_ok.mp h
  obtain ⟨rest, hrest, h⟩ := Except.bind_ok.mp h
  obtain ⟨target', hfirst, hrest⟩ := Except.bind_ok.mp hrest
  obtain ⟨after', hafter, hrest⟩ := Except.bind_ok.mp hrest
  cases hrest
  cases h
  rw [hsame before before' (fun other hmem => hothers other (List.mem_append_left _ hmem)) hbefore,
    hsame after after' (fun other hmem => hothers other (List.mem_append_right _ hmem)) hafter]
  refine ⟨before, target, target', after, hvalues, rfl, isText_iff.mp htarget,
    containerForImage_ok hfirst, fun other hmem hname => ?_⟩
  have hyes := isText_iff.mpr hname
  rw [hothers other hmem] at hyes
  cases hyes

theorem taskDefinitionForImage_ok {config : DeploymentConfig} {image : PyStr}
    {current payload : Members} (h : taskDefinitionForImage current config.containerName image
      config.chatModelTurnLimit = .ok payload) : Carried config image current payload := by
  unfold taskDefinitionForImage at h
  obtain ⟨-, h⟩ := Except.seq_ok.mp h
  dsimp only at h
  split at h
  case h_1 rawContainers hraw =>
    obtain ⟨containers, hcontainers, h⟩ := Except.bind_ok.mp h
    obtain ⟨hone, h⟩ := Except.seq_ok.mp h
    obtain ⟨containers', hretargeted, h⟩ := Except.bind_ok.mp h
    cases h
    have hset := updated_setMember (responseFields.foldl popMember current)
      (pyStr "containerDefinitions") (.list (containers'.map .dict))
    have hkept : pyStr "containerDefinitions" ∉ responseFields := by
      simp [responseFields, pyStr_inj]
    refine ⟨fun key hkey => ?_, fun key hkey hcontainersKey => ?_, containers, containers', ?_,
      hset.set, containersForImage_ok (guardThat_ok.mp hone) hretargeted⟩
    · rw [hset.others key fun h => hkept (h ▸ hkey), valueAt_popAll, if_pos hkey]
    · rw [hset.others key hcontainersKey, valueAt_popAll, if_neg hkey]
    · rw [get, valueAt_popAll, if_neg hkept] at hraw
      rw [get, hraw, mappings_ok hcontainers]
  case h_2 => cases h

end NokincFactory.DeployPilot
