/-
  File:      NokincFactory/Release/Shipping.lean
  Subject:   A deployment updates the service only with an image whose scan is clean.

  The stage of a deployment is all that it asked, with the answers.

  Any answer may come, and the script may stop at each; that a command of the AWS CLI does what it
  says is not assumed. What follows the update is not covered.

  * `Pushed`, `Scanned`, `Prepared`: what its parts have asked, and were answered;
  * `Shippable`: all of it before the update;
  * `shipping`: the protocol that allows the update only there, and so many queries of the scan;
  * `deploy_ships`: the script follows it.
-/
import NokincFactory.Release.DeployAnswers

namespace NokincFactory.DeployPilot

/-! ## 1. Transcripts -/

abbrev Entry : Type := Σ request : DeployAsk, DeployAsk.Answer request

abbrev Asked : Type := List Entry

/-- A command that was answered with a text. -/
def answered (command : List PyStr) (text : PyStr) : Entry := ⟨.run command none, .ok text⟩

/-- A command of `aws ecs update-service`. -/
def isUpdate (command : List PyStr) : Bool :=
  command.take 3 = words ["aws", "ecs", "update-service"]

/-- A command of `aws ecr describe-image-scan-findings`. -/
def isScanQuery (command : List PyStr) : Bool :=
  command.take 3 = words ["aws", "ecr", "describe-image-scan-findings"]

/-- The queries of the scan among what was asked. -/
def scanQueries (asked : Asked) : ℕ :=
  asked.countP fun entry =>
    match entry with
    | ⟨.run command _, _⟩ => isScanQuery command
    | _ => false

section Transcripts

variable (levels : ℕ) (config : DeploymentConfig)

/-- The image was built and pushed, and its digest read. -/
def Pushed (uri digest : PyStr) (asked : Asked) : Prop :=
  ∃ context identity repositories images password loggedIn built sent pushed,
    asked = [⟨.resolve config.contextDirectory, context⟩, ⟨.isFile context "Dockerfile", true⟩,
      answered (getCallerIdentity config) identity,
      answered (describeRepositories config) repositories, answered (listImages config) images,
      answered (getLoginPassword config) password,
      ⟨.run (login config (uri.takeWhile fun c => !isChar c '/'))
        (some (pyStrip password ++ pyStr "\n")), .ok loggedIn⟩,
      answered (build config (uri ++ pyStr ":" ++ config.imageTag) context) built,
      answered (push config (uri ++ pyStr ":" ++ config.imageTag)) sent,
      answered (describeImages config) pushed] ∧
    Identified levels config identity ∧ Registry levels config uri repositories ∧
    NewTag levels config images ∧ pyStrip password ≠ [] ∧ PushedImage levels digest pushed

/-- Rounds of the poll that had to wait. -/
def Waited (digest : PyStr) (asked : Asked) : Prop :=
  ∃ rounds : List (Except DeployError PyStr), (∀ answer ∈ rounds, Unfinished levels answer) ∧
    asked = rounds.flatMap fun answer =>
      [⟨.run (describeImageScanFindings config digest) none, answer⟩,
        ⟨.sleep config.scanPollSeconds, ()⟩]

/-- The poll ended with a clean scan of the digest. -/
def Scanned (digest : PyStr) (asked : Asked) : Prop :=
  ∃ waits scan, asked = waits ++ [answered (describeImageScanFindings config digest) scan] ∧
    Waited levels config digest waits ∧ CleanScan levels scan

/-- The current definition was carried over for the image, and registered. -/
def Prepared (image arn : PyStr) (asked : Asked) : Prop :=
  ∃ previous current payload uri service described registered,
    asked = [answered (describeServices config) service,
      answered (describeTaskDefinition config previous) described,
      ⟨.writeTemporary (dumpJson payload), .ok uri⟩,
      answered (registerTask config uri) registered,
      ⟨.unlink uri, .ok ()⟩] ∧
    RollbackService levels previous service ∧ Described levels current described ∧
    Carried config image current payload ∧ Registered levels arn registered

/-- All that was asked and answered before the service is updated by a command. -/
def Shippable (asked : Asked) (command : List PyStr) : Prop :=
  ∃ uri digest arn pushed scanned prepared, asked = pushed ++ scanned ++ prepared ∧
    command = updateService config arn ∧ Pushed levels config uri digest pushed ∧
    Scanned levels config digest scanned ∧
    Prepared levels config (pinnedImage uri digest) arn prepared

/-- The service is updated only where the image is shippable, and the scan is queried only so
often. -/
def shipping : Protocol DeployAsk DeployAsk.Answer Asked where
  allows asked
    | .run command _ => (isUpdate command → Shippable levels config asked command) ∧
        (isScanQuery command → (scanQueries asked : ℤ) < config.scanPollAttempts)
    | _ => True
  next asked request answer := asked ++ [⟨request, answer⟩]

end Transcripts

/-! ## 2. Commands -/

/-- A command that neither updates the service nor queries a scan. -/
structure Plain (command : List PyStr) : Prop where
  update : isUpdate command = false
  query : isScanQuery command = false

theorem plain_of_words {first : PyStr} {second third : String} {rest : List PyStr}
    (hupdate : ¬ (second = "ecs" ∧ third = "update-service"))
    (hquery : ¬ (second = "ecr" ∧ third = "describe-image-scan-findings")) :
    Plain (first :: pyStr second :: pyStr third :: rest) := by
  refine ⟨decide_eq_false fun h => ?_, decide_eq_false fun h => ?_⟩
  · have hwords : pyStr second = pyStr "ecs" ∧ pyStr third = pyStr "update-service" := by
      simpa [words] using (List.cons.inj h).2
    exact hupdate (hwords.imp pyStr_inj.mp pyStr_inj.mp)
  · have hwords : pyStr second = pyStr "ecr" ∧
        pyStr third = pyStr "describe-image-scan-findings" := by
      simpa [words] using (List.cons.inj h).2
    exact hquery (hwords.imp pyStr_inj.mp pyStr_inj.mp)

/-- A command of another service, or of none. -/
theorem plain_of_second {first third : PyStr} {second : String} {rest : List PyStr}
    (hecs : second ≠ "ecs") (hecr : second ≠ "ecr") :
    Plain (first :: pyStr second :: third :: rest) := by
  refine ⟨decide_eq_false fun h => ?_, decide_eq_false fun h => ?_⟩
  · exact hecs (pyStr_inj.mp (List.cons.inj (List.cons.inj h).2).1)
  · exact hecr (pyStr_inj.mp (List.cons.inj (List.cons.inj h).2).1)

section Commands

variable (config : DeploymentConfig)

theorem plain_getCallerIdentity : Plain (getCallerIdentity config) :=
  plain_of_second (by decide) (by decide)

theorem plain_describeRepositories : Plain (describeRepositories config) :=
  plain_of_words (by decide) (by decide)

theorem plain_listImages : Plain (listImages config) :=
  plain_of_words (by decide) (by decide)

theorem plain_getLoginPassword : Plain (getLoginPassword config) :=
  plain_of_words (by decide) (by decide)

theorem plain_describeImages : Plain (describeImages config) :=
  plain_of_words (by decide) (by decide)

theorem plain_describeServices : Plain (describeServices config) :=
  plain_of_words (by decide) (by decide)

theorem plain_describeTaskDefinition (taskDefinition : PyStr) :
    Plain (describeTaskDefinition config taskDefinition) :=
  plain_of_words (by decide) (by decide)

theorem plain_registerTask (uri : PyStr) : Plain (registerTask config uri) :=
  plain_of_words (by decide) (by decide)

theorem plain_waitServicesStable : Plain (waitServicesStable config) :=
  plain_of_words (by decide) (by decide)

theorem plain_login (registry : PyStr) : Plain (login config registry) :=
  plain_of_second (by decide) (by decide)

theorem plain_build (taggedImage context : PyStr) : Plain (build config taggedImage context) :=
  plain_of_second (by decide) (by decide)

theorem plain_push (taggedImage : PyStr) : Plain (push config taggedImage) :=
  plain_of_second (by decide) (by decide)

theorem isScanQuery_describe (digest : PyStr) :
    isScanQuery (describeImageScanFindings config digest) = true := decide_eq_true rfl

theorem isUpdate_describe (digest : PyStr) :
    isUpdate (describeImageScanFindings config digest) = false :=
  decide_eq_false fun h =>
    absurd (pyStr_inj.mp (List.cons.inj (List.cons.inj h).2).1) (by decide)

theorem isScanQuery_updateService (arn : PyStr) : isScanQuery (updateService config arn) = false :=
  decide_eq_false fun h =>
    absurd (pyStr_inj.mp (List.cons.inj (List.cons.inj h).2).1) (by decide)

end Commands

/-! ## 3. Parts of the script -/

section Leads

variable {levels : ℕ} {config : DeploymentConfig} {asked : Asked} {α β : Type}

/-- From what was asked, a part follows the protocol, and where it returns, it has asked so much
more. -/
def Leads (levels : ℕ) (config : DeploymentConfig) (asked : Asked) (p : DeployProg α)
    (M : α → Asked → Prop) : Prop :=
  (shipping levels config).Follows asked p fun r asked' =>
    ∀ value, r = .ok value → ∃ more, asked' = asked ++ more ∧ M value more

theorem Leads.seq {p : DeployProg α} {f : α → DeployProg β} {M : α → Asked → Prop}
    {N : β → Asked → Prop} (hp : Leads levels config asked p M)
    (hf : ∀ value more, M value more →
      Leads levels config (asked ++ more) (f value) fun r later => N r (more ++ later)) :
    Leads levels config asked (p >>= f) N := by
  refine Protocol.Follows.seq hp (fun error asked' _ value h => (nomatch h)) ?_
  intro value asked' h
  obtain ⟨more, hmore, hM⟩ := h value rfl
  rw [hmore]
  refine (hf value more hM).weaken fun r asked'' hlater result hresult => ?_
  obtain ⟨later, hasked, hN⟩ := hlater result hresult
  exact ⟨more ++ later, by rw [hasked, List.append_assoc], hN⟩

theorem leads_pure {value : α} {M : α → Asked → Prop} (h : M value []) :
    Leads levels config asked (pure value : DeployProg α) M := by
  intro result hresult
  cases hresult
  exact ⟨[], (List.append_nil asked).symm, h⟩

theorem leads_ofExcept {r : Except DeployError α} {M : α → Asked → Prop}
    (h : ∀ value, r = .ok value → M value []) :
    Leads levels config asked (.ofExcept r : DeployProg α) M := by
  refine Protocol.follows_ofExcept.mpr fun value hvalue => ?_
  exact ⟨[], (List.append_nil asked).symm, h value hvalue⟩

/-- What was computed, and what comes after it. -/
theorem leads_computed {r : Except DeployError α} {f : α → DeployProg β} {N : β → Asked → Prop}
    (h : ∀ value, r = .ok value → Leads levels config asked (f value) N) :
    Leads levels config asked (.ofExcept r >>= f) N := by
  cases r with
  | error error => exact fun value hvalue => (nomatch hvalue)
  | ok value => exact h value rfl

/-- What was checked, and what comes after it. -/
theorem leads_checked {p : Prop} [Decidable p] {error : DeployError} {f : Unit → DeployProg β}
    {N : β → Asked → Prop} (h : p → Leads levels config asked (f ()) N) :
    Leads levels config asked (.insist p error >>= f) N := by
  rw [Prog.insist]
  by_cases hp : p
  · rw [if_pos hp]
    exact h hp
  · rw [if_neg hp]
    exact fun value hvalue => (nomatch hvalue)

theorem allows_plain {command : List PyStr} (h : Plain command) (inputText : Option PyStr) :
    (shipping levels config).allows asked (.run command inputText) := by
  refine ⟨fun hupdate => ?_, fun hquery => ?_⟩
  · rw [h.update] at hupdate
    cases hupdate
  · rw [h.query] at hquery
    cases hquery

theorem leads_run {command : List PyStr} {inputText : Option PyStr}
    (h : (shipping levels config).allows asked (.run command inputText)) :
    Leads levels config asked (run command inputText) fun text more =>
      more = [⟨.run command inputText, .ok text⟩] := by
  refine ⟨h, fun answer => Protocol.follows_ofExcept.mpr fun text htext => ?_⟩
  cases htext
  exact ⟨_, rfl, rfl⟩

/-- A command whose answer is read as JSON, also where it fails. -/
theorem awsJson_follows {command : List PyStr}
    (h : (shipping levels config).allows asked (.run command none)) :
    (shipping levels config).Follows asked (awsJson levels command) fun r asked' =>
      ∃ answer : Except DeployError PyStr, asked' = asked ++ [⟨.run command none, answer⟩] ∧
        r = (answer >>= loadJson levels) := by
  refine ⟨h, fun answer => ?_⟩
  cases answer with
  | error error => exact ⟨.error error, rfl, rfl⟩
  | ok text => exact Protocol.follows_ofExcept.mpr ⟨.ok text, rfl, rfl⟩

theorem leads_aws {command : List PyStr} (h : Plain command) :
    Leads levels config asked (awsJson levels command) fun response more =>
      ∃ text, more = [answered command text] ∧ loadJson levels text = .ok response := by
  refine (awsJson_follows (allows_plain h none)).weaken fun r asked' hr response hresponse => ?_
  obtain ⟨answer, hasked, hread⟩ := hr
  rw [hresponse] at hread
  obtain ⟨text, rfl, hjson⟩ := Except.bind_ok.mp hread.symm
  exact ⟨_, hasked, text, rfl, hjson⟩

/-! ## 4. The image -/

theorem checkConfiguration_leads :
    Leads levels config asked (checkConfiguration config) fun context more =>
      more = [⟨.resolve config.contextDirectory, context⟩,
        ⟨.isFile context "Dockerfile", true⟩] ∧ 1 ≤ config.scanPollAttempts := by
  unfold checkConfiguration
  refine leads_checked fun _ => leads_computed fun _ _ => leads_checked fun hbounds => ?_
  refine Leads.seq (M := fun context more => more = [⟨.resolve config.contextDirectory, context⟩])
    ⟨trivial, fun context value h => ?_⟩ fun context more hmore => ?_
  · cases h
    exact ⟨_, rfl, rfl⟩
  refine Leads.seq (M := fun found more => more = [⟨.isFile context "Dockerfile", found⟩])
    ⟨trivial, fun found value h => ?_⟩ fun found more' hmore' => ?_
  · cases h
    exact ⟨_, rfl, rfl⟩
  refine leads_checked fun hfound => leads_pure ⟨?_, by omega⟩
  rw [hmore, hmore', hfound]
  rfl

theorem pushImage_leads (context : PyStr) :
    Leads levels config asked (pushImage levels config context) fun result more =>
      Pushed levels config result.1 result.2 ([⟨.resolve config.contextDirectory, context⟩,
        ⟨.isFile context "Dockerfile", true⟩] ++ more) := by
  unfold pushImage
  refine (leads_aws (plain_getCallerIdentity config)).seq fun identity _ hidentity => ?_
  obtain ⟨identityText, rfl, hidentity⟩ := hidentity
  refine leads_computed fun _ hidentified => ?_
  refine (leads_aws (plain_describeRepositories config)).seq fun repository _ hrepository => ?_
  obtain ⟨repositoryText, rfl, hrepository⟩ := hrepository
  refine leads_computed fun uri huri => ?_
  refine (leads_aws (plain_listImages config)).seq fun existing _ hexisting => ?_
  obtain ⟨existingText, rfl, hexisting⟩ := hexisting
  refine leads_computed fun _ hnew => ?_
  refine (leads_run (allows_plain (plain_getLoginPassword config) none)).seq ?_
  intro password _ hpassword
  refine leads_checked fun hnonblank => ?_
  refine (leads_run (allows_plain (plain_login config _) _)).seq fun loggedIn _ hlogin => ?_
  refine (leads_run (allows_plain (plain_build config _ context) none)).seq fun built _ hbuild => ?_
  refine (leads_run (allows_plain (plain_push config _) none)).seq fun sent _ hpush => ?_
  refine (leads_aws (plain_describeImages config)).seq fun pushed _ hpushed => ?_
  obtain ⟨pushedText, rfl, hpushed⟩ := hpushed
  refine leads_computed fun digest hdigest => leads_pure ?_
  rw [hpassword, hlogin, hbuild, hpush]
  exact ⟨context, identityText, repositoryText, existingText, password, loggedIn, built, sent,
    pushedText, rfl, checkIdentity_ok hidentity hidentified, readRepository_ok hrepository huri,
    checkTags_ok hexisting hnew, hnonblank, readDigest_ok hpushed hdigest⟩

/-- Building and pushing queries no scan. -/
theorem Pushed.noQuery {uri digest : PyStr} {more : Asked}
    (h : Pushed levels config uri digest more) : scanQueries more = 0 := by
  obtain ⟨context, identity, repositories, images, password, loggedIn, built, sent, pushed, rfl,
    -⟩ := h
  simp [scanQueries, answered, (plain_getCallerIdentity config).query,
    (plain_describeRepositories config).query, (plain_listImages config).query,
    (plain_getLoginPassword config).query, (plain_login config _).query,
    (plain_build config _ _).query, (plain_push config _).query,
    (plain_describeImages config).query]

/-! ## 5. The scan -/

theorem scanQueries_append (asked more : Asked) :
    scanQueries (asked ++ more) = scanQueries asked + scanQueries more := List.countP_append

/-- A round that waits, before the others. -/
theorem Scanned.wait {digest : PyStr} {answer : Except DeployError PyStr} {more : Asked}
    (hanswer : Unfinished levels answer) (h : Scanned levels config digest more) :
    Scanned levels config digest ([⟨.run (describeImageScanFindings config digest) none, answer⟩] ++
      ([⟨.sleep config.scanPollSeconds, ()⟩] ++ more)) := by
  obtain ⟨waits, scan, rfl, ⟨rounds, hrounds, rfl⟩, hclean⟩ := h
  refine ⟨_, scan, rfl, ⟨answer :: rounds, fun other hmem => ?_, rfl⟩, hclean⟩
  rcases List.mem_cons.mp hmem with rfl | hmem
  · exact hanswer
  · exact hrounds other hmem

/-- The poll: on the attempts that are left, the induction, and on the bound that the queries so
far keep with them. -/
theorem waitForCleanScan_leads (digest : PyStr) (left : ℕ)
    (hbound : (scanQueries asked + left : ℤ) ≤ config.scanPollAttempts) :
    Leads levels config asked (waitForCleanScan levels config digest left) fun _ more =>
      Scanned levels config digest more := by
  induction left generalizing asked with
  | zero => exact fun value h => (nomatch h)
  | succ left ih =>
    have hallows : (shipping levels config).allows asked
        (.run (describeImageScanFindings config digest) none) := by
      refine ⟨fun hupdate => ?_, fun _ => by omega⟩
      rw [isUpdate_describe] at hupdate
      cases hupdate
    unfold waitForCleanScan
    refine Leads.seq (M := fun r more => ∃ answer : Except DeployError PyStr,
      more = [⟨.run (describeImageScanFindings config digest) none, answer⟩] ∧
        r = (answer >>= loadJson levels)) ?_ fun r more h => ?_
    · refine Protocol.follows_attempt.mpr ((awsJson_follows hallows).weaken ?_)
      intro r asked' ⟨answer, hasked, hr⟩ value hvalue
      cases hvalue
      exact ⟨_, hasked, answer, rfl, hr⟩
    obtain ⟨answer, rfl, rfl⟩ := h
    refine leads_computed fun clean hclean => ?_
    rcases scanAnswer_ok hclean with ⟨rfl, text, rfl, hscan⟩ | ⟨rfl, hwait⟩
    · exact leads_pure ⟨[], text, rfl, ⟨[], fun _ h => (nomatch h), rfl⟩, hscan⟩
    · rw [if_neg Bool.false_ne_true]
      cases left with
      | zero => exact fun value h => (nomatch h)
      | succ left =>
        have hquery : scanQueries [(⟨.run (describeImageScanFindings config digest) none, answer⟩ :
            Entry)] = 1 := by
          simp [scanQueries, isScanQuery_describe]
        have hsleep : scanQueries [(⟨.sleep config.scanPollSeconds, ()⟩ : Entry)] = 0 := rfl
        refine Leads.seq (M := fun _ more => more = [⟨.sleep config.scanPollSeconds, ()⟩])
          ⟨trivial, fun _ value h => ⟨_, rfl, rfl⟩⟩ fun _ more hmore => ?_
        rw [hmore]
        refine (ih ?_).weaken fun r asked' h value hvalue => ?_
        · rw [scanQueries_append, scanQueries_append, hquery, hsleep]
          omega
        · obtain ⟨more, hasked, hscanned⟩ := h value hvalue
          exact ⟨more, hasked, hscanned.wait hwait⟩

/-! ## 6. The definition, and the update -/

theorem registerTaskDefinition_leads (payload : Members) :
    Leads levels config asked (registerTaskDefinition levels config payload) fun arn more =>
      ∃ uri text, more = [⟨.writeTemporary (dumpJson payload), .ok uri⟩,
        answered (registerTask config uri) text, ⟨.unlink uri, .ok ()⟩] ∧
          Registered levels arn text := by
  unfold registerTaskDefinition
  refine Leads.seq (M := fun uri more => more = [⟨.writeTemporary (dumpJson payload), .ok uri⟩])
    ⟨trivial, fun answer => Protocol.follows_ofExcept.mpr fun uri huri => ?_⟩
    fun uri _ hwritten => ?_
  · cases huri
    exact ⟨_, rfl, rfl⟩
  refine Leads.seq (M := fun r more => ∃ answer : Except DeployError PyStr,
    more = [⟨.run (registerTask config uri) none, answer⟩] ∧ r = (answer >>= loadJson levels))
      ?_ fun response more h => ?_
  · refine Protocol.follows_attempt.mpr
      ((awsJson_follows (allows_plain (plain_registerTask config uri) none)).weaken ?_)
    intro r asked' ⟨answer, hasked, hr⟩ value hvalue
    cases hvalue
    exact ⟨_, hasked, answer, rfl, hr⟩
  obtain ⟨answer, rfl, hread⟩ := h
  refine Leads.seq (M := fun _ more => more = [⟨.unlink uri, .ok ()⟩])
    ⟨trivial, fun answer => Protocol.follows_ofExcept.mpr fun _ h => ?_⟩ fun _ _ hunlinked => ?_
  · cases h
    exact ⟨_, rfl, rfl⟩
  refine leads_computed fun members hmembers => leads_computed fun task htask => ?_
  refine leads_ofExcept fun arn harn => ?_
  rw [hmembers] at hread
  obtain ⟨text, rfl, hjson⟩ := Except.bind_ok.mp hread.symm
  rw [hwritten, hunlinked]
  exact ⟨uri, text, rfl, members, task, hjson, mapping_ok.mp htask, requiredString_ok harn⟩

theorem registerImage_leads (image : PyStr) :
    Leads levels config asked (registerImage levels config image) fun arn more =>
      Prepared levels config image arn more := by
  unfold registerImage
  refine (leads_aws (plain_describeServices config)).seq fun response _ hresponse => ?_
  obtain ⟨serviceText, rfl, hresponse⟩ := hresponse
  refine leads_computed fun service hservice => leads_computed fun _ hrollback => ?_
  refine leads_computed fun previous hprevious => ?_
  refine (leads_aws (plain_describeTaskDefinition config previous)).seq fun described _ htask => ?_
  obtain ⟨taskText, rfl, htask⟩ := htask
  refine leads_computed fun current hcurrent => leads_computed fun payload hpayload => ?_
  refine (registerTaskDefinition_leads payload).weaken fun r asked' h arn harn => ?_
  obtain ⟨_, hasked, uri, registeredText, rfl, hregistered⟩ := h arn harn
  exact ⟨_, hasked, previous, current, payload, uri, serviceText, taskText, registeredText, rfl,
    service_ok hresponse hservice hrollback hprevious,
    ⟨described, htask, mapping_ok.mp hcurrent⟩, taskDefinitionForImage_ok hpayload, hregistered⟩

/-- The update is allowed where the image is shippable; nothing after it needs to be. -/
theorem promote_leads {arn : PyStr} (h : Shippable levels config asked (updateService config arn)) :
    Leads levels config asked (promote levels config arn) fun _ _ => True := by
  have hallows : (shipping levels config).allows asked (.run (updateService config arn) none) := by
    refine ⟨fun _ => h, fun hquery => ?_⟩
    rw [isScanQuery_updateService] at hquery
    cases hquery
  unfold promote
  refine (leads_run hallows).seq fun _ _ _ => ?_
  refine (leads_run (allows_plain (plain_waitServicesStable config) none)).seq fun _ _ _ => ?_
  refine (leads_aws (plain_describeServices config)).seq fun response _ _ => ?_
  exact leads_computed fun service _ => leads_computed fun _ _ => leads_ofExcept fun _ _ => trivial

end Leads

/-- Whatever its commands are answered, the script queries the scan at most so often as it is told
to, and updates the service only after a clean scan of the digest that it deploys, with rollback
reported, and to a definition that was registered from the current one. -/
theorem deploy_ships (levels : ℕ) (config : DeploymentConfig) :
    (shipping levels config).Follows [] (deployPilot levels config) fun _ _ => True := by
  refine Protocol.Follows.weaken (show Leads levels config [] _ fun _ _ => True from ?_)
    fun _ _ _ => trivial
  unfold deployPilot
  refine checkConfiguration_leads.seq fun context first ⟨hfirst, hattempts⟩ => ?_
  refine (pushImage_leads context).seq fun result pushed hpushed => ?_
  rw [← hfirst] at hpushed
  refine (waitForCleanScan_leads result.2 _ ?_).seq fun _ scanned hscanned => ?_
  · rw [List.nil_append, hpushed.noQuery]
    omega
  refine (registerImage_leads (pinnedImage result.1 result.2)).seq fun arn prepared hprepared => ?_
  refine (promote_leads ?_).seq fun _ _ _ => leads_pure trivial
  exact ⟨result.1, result.2, arn, first ++ pushed, scanned, prepared, by simp, rfl, hpushed,
    hscanned, hprepared⟩

/-! ## 7. A run that waits -/

section Run

def isUpdateEntry : Entry → Bool
  | ⟨.run command _, _⟩ => isUpdate command
  | _ => false

/-- Somewhere before an update, something of a kind was answered. -/
def updateAfter (kind : Entry → Bool) : Asked → Bool
  | [] => false
  | entry :: rest => (kind entry && rest.any isUpdateEntry) || updateAfter kind rest

/-- A command failed. -/
def isFailed : Entry → Bool
  | ⟨.run _ _, .error _⟩ => true
  | _ => false

/-- A scan counts a severity that is not known. -/
def countsUnknown (levels : ℕ) : Entry → Bool
  | ⟨.run command _, .ok text⟩ =>
    isScanQuery command && match loadJson levels text with
      | .ok scan => match get scan "imageScanFindings" with
        | some (.dict findings) => match get findings "findingSeverityCounts" with
          | some (.dict counts) => counts.any fun entry => entry.1 ∉ knownSeverities
          | _ => false
        | _ => false
      | .error _ => false
  | _ => false

def pilotConfig : DeploymentConfig where
  region := pyStr "r"
  cluster := pyStr "c"
  service := pyStr "s"
  repository := pyStr "f"
  imageTag := pyStr "t"
  accountId := pyStr "1"

/-- A text of ASCII, read off its bytes. -/
def asciiText (text : String) : PyStr :=
  text.toByteArray.data.toList.map fun byte => Fin.ofNat _ byte.toNat

/-- The texts that were written to be registered. -/
def writtenTexts (asked : Asked) : List PyStr :=
  asked.filterMap fun entry =>
    match entry with
    | ⟨.writeTemporary text, _⟩ => some text
    | _ => none

/-- The answers, one after the other: the first query of the scan fails, the second one finds a
scan that counts no finding of a severity that is not known, and the current definition has a
number that is no double. -/
def pilotTexts : List (Except DeployError PyStr) :=
  [.ok (asciiText "\x7b\"Account\":\"1\",\"Arn\":\"u\"\x7d"),
    .ok (asciiText ("\x7b\"repositories\":[\x7b\"imageTagMutability\":\"IMMUTABLE\"," ++
      "\"imageScanningConfiguration\":\x7b\"scanOnPush\":true\x7d," ++
      "\"repositoryUri\":\"1.dkr.ecr.r.amazonaws.com/f\"\x7d]\x7d")),
    .ok (asciiText "\x7b\"imageIds\":[]\x7d"), .ok (asciiText "p"), .ok [], .ok [], .ok [],
    .ok (asciiText "\x7b\"imageDetails\":[\x7b\"imageDigest\":\"sha256:" ++ List.replicate 64 97 ++
      asciiText "\"\x7d]\x7d"),
    .error (.command (some (pyStr "ScanNotFoundException"))),
    .ok (asciiText ("\x7b\"imageScanStatus\":\x7b\"status\":\"COMPLETE\"\x7d," ++
      "\"imageScanFindings\":\x7b\"findings\":[]," ++
      "\"findingSeverityCounts\":\x7b\"WEIRD\":0\x7d\x7d\x7d")),
    .ok (asciiText ("\x7b\"services\":[\x7b\"status\":\"ACTIVE\",\"taskDefinition\":\"d\"," ++
      "\"deploymentConfiguration\":\x7b\"deploymentCircuitBreaker\":" ++
      "\x7b\"enable\":true,\"rollback\":true\x7d\x7d\x7d]\x7d")),
    .ok (asciiText ("\x7b\"taskDefinition\":\x7b\"size\":1e400,\"containerDefinitions\":" ++
      "[\x7b\"name\":\"factory\"\x7d]\x7d\x7d")),
    .ok (asciiText "\x7b\"taskDefinition\":\x7b\"taskDefinitionArn\":\"n\"\x7d\x7d"),
    .ok [], .ok []]

def pilotAnswer (texts : List (Except DeployError PyStr)) :
    (request : DeployAsk) → DeployAsk.Answer request × List (Except DeployError PyStr)
  | .resolve directory => (directory, texts)
  | .isFile _ _ => (true, texts)
  | .run _ _ => (texts.headD (.error .other), texts.tail)
  | .sleep _ => ((), texts)
  | .writeTemporary _ => (.ok (pyStr "file:///t"), texts)
  | .unlink _ => (.ok (), texts)

def pilotRun : Asked :=
  ((deployPilot 9 pilotConfig).run (fun w request =>
    ((pilotAnswer w.1 request).1, (pilotAnswer w.1 request).2,
      w.2 ++ [⟨request, (pilotAnswer w.1 request).1⟩])) (pilotTexts, [])).2.2

/-- The definition that the run registers. -/
def pilotDefinition : PyStr :=
  asciiText ("\x7b\"size\":Infinity,\"containerDefinitions\":[\x7b\"name\":\"factory\"," ++
    "\"image\":\"1.dkr.ecr.r.amazonaws.com/f@sha256:") ++ List.replicate 64 97 ++
      asciiText "\"\x7d]\x7d"

/-- The poll goes on after a query that failed, a severity that is not known may count nothing, and
a number that no double is near to is carried over as an infinite one. -/
theorem update_after_failure : updateAfter isFailed pilotRun = true ∧
    updateAfter (countsUnknown 9) pilotRun = true ∧ writtenTexts pilotRun = [pilotDefinition] := by
  decide +kernel

end Run

end NokincFactory.DeployPilot
