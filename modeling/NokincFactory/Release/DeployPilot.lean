/-
  File:      NokincFactory/Release/DeployPilot.lean
  Subject:   `scripts/deploy_pilot.py`: build, scan and promote one immutable image.

  The script is a program over its command runner, which may answer a command with any text, or
  raise. What it reads out of an answer is computed from the JSON of the text. A number that is no
  integer is the double that Python reads, by its `repr`. What the AWS CLI does with a command is
  not covered, nor is the process that the runner starts.

  * `Members`, `loadJson`, `dumpJson`: what the runner's JSON is read as, and what is written;
  * `DeployAsk`, `DeployProg`: what the script asks of its runner and of its host;
  * `validateScanResult`, `taskDefinitionForImage`: the checks of a scan, and the new definition;
  * `waitForCleanScan`, `registerTaskDefinition`, `deployPilot`.
-/
import NokincFactory.Domain.CompactJson
import NokincFactory.Lib.Programs
import NokincFactory.Lib.Shlex

namespace NokincFactory.DeployPilot

/-! ## 1. Values as Python has them -/

/-- The members of a JSON object. -/
abbrev Members : Type := List (PyStr × Loaded)

def valueAt (members : Members) (key : PyStr) : Option Loaded :=
  (members.find? fun member => member.1 = key).map Prod.snd

/-- `members.get(key)`. -/
def get (members : Members) (key : String) : Option Loaded := valueAt members (pyStr key)

/-- `members[key] = value`. -/
def setMember : Members → PyStr → Loaded → Members
  | [], key, value => [(key, value)]
  | member :: members, key, value =>
    if member.1 = key then (key, value) :: members else member :: setMember members key value

/-- `members.pop(key, None)`. -/
def popMember (members : Members) (key : PyStr) : Members :=
  members.filter fun member => member.1 ≠ key

/-- Without a hook, the last of the members with one key stays. -/
def plainObject : Hook where
  apply pairs := .ok (.dict (pairs.foldl (fun members pair => setMember members pair.1 pair.2) []))
  call _ := 0

/-- What is not printable ASCII, by its UTF-16 units. -/
def escapeAscii (c : CodePoint) : PyStr :=
  if 32 ≤ c.val ∧ c.val ≤ 126 then [c] else pyText ((units c).flatMap fun u => unicodeEscape u.val)

/-- `json.dump(payload, file, separators=(",", ":"))`. -/
def dumpJson (payload : Members) : PyStr := (Loaded.dict payload).compact.flatMap escapeAscii

/-- `value == 0`. -/
def isZero : Loaded → Bool
  | .bool value => !value
  | .int value => value = 0
  | .float repr => repr = pyStr "0.0" ∨ repr = pyStr "-0.0"
  | _ => false

/-- `bool(value)`. -/
def truthy : Loaded → Bool
  | .none => false
  | .str value => !value.isEmpty
  | .list items => !items.isEmpty
  | .dict members => !members.isEmpty
  | value => !isZero value

/-- The value that `isinstance(value, int)` accepts; a `bool` is an `int`. -/
def intOf : Option Loaded → Option ℤ
  | some (.int value) => some value
  | some (.bool value) => some (if value then 1 else 0)
  | _ => none

/-- `value == text`. -/
def isText (value : Option Loaded) (text : PyStr) : Bool :=
  match value with
  | some (.str s) => s = text
  | _ => false

/-- `value is True`. -/
def isTrue : Option Loaded → Bool
  | some (.bool true) => true
  | _ => false

/-! ## 2. What the script asks -/

/-- A `DeploymentError`, a `CommandFailure` with its code, or another exception. -/
inductive DeployError where
  | deployment (message : String)
  | command (code : Option PyStr)
  | other

/-- Something asked of the host, or of the command runner. The task definition is passed through
a temporary file: what is asked is to write its text, and the answer is the file's URI. -/
inductive DeployAsk where
  | resolve (directory : PyStr)
  | isFile (directory : PyStr) (name : String)
  | run (command : List PyStr) (inputText : Option PyStr)
  | sleep (seconds : ℤ)
  | writeTemporary (text : PyStr)
  | unlink (uri : PyStr)

@[reducible] def DeployAsk.Answer : DeployAsk → Type
  | .resolve _ => PyStr
  | .isFile _ _ => Bool
  | .run _ _ => Except DeployError PyStr
  | .sleep _ => Unit
  | .writeTemporary _ => Except DeployError PyStr
  | .unlink _ => Except DeployError Unit

abbrev DeployProg (α : Type) : Type := Prog DeployAsk DeployAsk.Answer DeployError α

def run (command : List PyStr) (inputText : Option PyStr) : DeployProg PyStr :=
  .ask (.run command inputText) .ofExcept

/-! ## 3. Configuration -/

inductive TurnLimit where
  | unlimited
  | count (limit : ℤ)

/-- `str(chat_model_turn_limit)`. -/
def TurnLimit.text : TurnLimit → PyStr
  | .unlimited => pyStr "unlimited"
  | .count limit => pyText (Json.intText limit)

/-- `str` writes integers of so many digits only. -/
def TurnLimit.printable : TurnLimit → Bool
  | .unlimited => true
  | .count limit => (Nat.toDigits 10 limit.natAbs).length ≤ PyValue.maxStrDigits

structure DeploymentConfig where
  region : PyStr
  cluster : PyStr
  service : PyStr
  repository : PyStr
  imageTag : PyStr
  contextDirectory : PyStr := pyStr "."
  containerCli : PyStr := pyStr "podman"
  containerName : PyStr := pyStr "factory"
  accountId : PyStr := pyStr "441186133046"
  chatModelTurnLimit : Option TurnLimit := none
  scanPollAttempts : ℤ := 90
  scanPollSeconds : ℤ := 10

structure DeploymentResult where
  image : PyStr
  taskDefinitionArn : PyStr

/-- `[A-Za-z0-9_]`. -/
def tagStart (c : CodePoint) : Bool :=
  (65 ≤ c.val && c.val ≤ 90) || (97 ≤ c.val && c.val ≤ 122) || isDigit c || isChar c '_'

/-- `_TAG_PATTERN.fullmatch`. -/
def tagPattern : PyStr → Bool
  | [] => false
  | c :: rest =>
    tagStart c && rest.length ≤ 127 && rest.all fun c => tagStart c || isChar c '.' || isChar c '-'

/-- `_DIGEST_PATTERN.fullmatch`. -/
def digestPattern (text : PyStr) : Bool :=
  text.take 7 = pyStr "sha256:" && text.length = 71 &&
    (text.drop 7).all fun c => (97 ≤ c.val && c.val ≤ 102) || isDigit c

/-- `_RESPONSE_FIELDS`. -/
def responseFields : List PyStr :=
  [pyStr "compatibilities", pyStr "deregisteredAt", pyStr "registeredAt", pyStr "registeredBy",
    pyStr "requiresAttributes", pyStr "revision", pyStr "status", pyStr "taskDefinitionArn"]

/-- `_KNOWN_SEVERITIES`. -/
def knownSeverities : List PyStr :=
  [pyStr "CRITICAL", pyStr "HIGH", pyStr "MEDIUM", pyStr "LOW", pyStr "INFORMATIONAL",
    pyStr "UNDEFINED"]

/-- The severities that block a deployment. -/
def blockingSeverities : List String := ["CRITICAL", "HIGH", "UNDEFINED"]

/-! ## 4. Reading an answer -/

/-- `_mapping`. The keys of a JSON object are strings. -/
def mapping (value : Option Loaded) (label : String) : Except DeployError Members :=
  match value with
  | some (.dict members) => .ok members
  | _ => .error (.deployment (label ++ " is invalid"))

/-- `_load_json`, with the levels of the stack that the scanner has left. -/
def loadJson (levels : ℕ) (output : PyStr) : Except DeployError Members :=
  match loadsText plainObject levels output with
  | .ok value => mapping (some value) "AWS response"
  | .error .value => .error (.deployment "AWS CLI returned invalid JSON")
  | .error .digits => .error .other
  | .error .recursion => .error .other

/-- `_required_string`. -/
def requiredString (value : Members) (key : String) : Except DeployError PyStr :=
  match get value key with
  | some (.str (c :: rest)) => .ok (c :: rest)
  | _ => .error (.deployment ("AWS response is missing " ++ key))

def validateRegistryConfiguration (repository : Members) : Except DeployError Unit := do
  guardThat (isText (get repository "imageTagMutability") (pyStr "IMMUTABLE"))
    (.deployment "ECR repository must enforce immutable tags")
  match get repository "imageScanningConfiguration" with
  | some (.dict scan) =>
    guardThat (isTrue (get scan "scanOnPush"))
      (.deployment "ECR repository must enable scan-on-push")
  | _ => .error (.deployment "ECR repository must enable scan-on-push")

/-- The severity of a row of the findings. -/
def rowSeverity (row : Loaded) : Except DeployError PyStr := do
  let finding ← mapping (some row) "ECR finding"
  match get finding "severity" with
  | some (.str severity) => do
    guardThat (severity ∈ knownSeverities)
      (.deployment "ECR scan contains an unrecognized severity")
    pure severity
  | _ => .error (.deployment "ECR scan contains an unrecognized severity")

/-- One entry of the severity counts. One that is not known may only count nothing. -/
def checkCount (entry : PyStr × Loaded) : Except DeployError Unit :=
  if entry.1 ∈ knownSeverities then
    match entry.2 with
    | .int count => guardThat (0 ≤ count) (.deployment "ECR scan severity count is invalid")
    | _ => .error (.deployment "ECR scan severity count is invalid")
  else guardThat (isZero entry.2) (.deployment "ECR scan contains an unrecognized severity")

/-- What is reported for a severity. -/
def reportedCount : Option Loaded → Except DeployError ℤ
  | none => .ok 0
  | some (.int count) =>
    if 0 ≤ count then .ok count else .error (.deployment "ECR scan severity count is invalid")
  | some _ => .error (.deployment "ECR scan severity count is invalid")

/-- One of the severities that block, over the counts and the severities of the rows. -/
def checkBlocking (counts : Members) (rows : List PyStr) (severity : String) :
    Except DeployError Unit := do
  let reported ← reportedCount (get counts severity)
  guardThat (¬ (0 < max reported (rows.count (pyStr severity))))
    (.deployment ("ECR scan blocked by " ++ severity ++ " findings"))

def validateScanResult (scan : Members) : Except DeployError Unit := do
  let status ← mapping (get scan "imageScanStatus") "ECR scan status"
  guardThat (isText (get status "status") (pyStr "COMPLETE"))
    (.deployment "deployment requires a completed scan")
  let findings ← mapping (get scan "imageScanFindings") "ECR scan findings"
  match get findings "findings", get findings "findingSeverityCounts" with
  | some (.list rows), some (.dict counts) => do
    let severities ← rows.mapM rowSeverity
    counts.forM checkCount
    blockingSeverities.forM (checkBlocking counts severities)
  | _, _ => .error (.deployment "ECR scan result is incomplete")

/-! ## 5. The task definition -/

/-- `_validate_chat_turn_limit`. -/
def validateChatTurnLimit : Option TurnLimit → Except DeployError Unit
  | some (.count limit) =>
    guardThat (1 ≤ limit) (.deployment "chat model turn limit must be a positive integer")
  | _ => .ok ()

/-- An environment variable that is the turn limit. -/
def isTurnLimit : Loaded → Bool
  | .dict entry => isText (get entry "name") (pyStr "FACTORY_CHAT_MODEL_TURN_LIMIT")
  | _ => false

/-- The turn limit with its value set; any other entry as it is. -/
def setLimitValue (limit : TurnLimit) (entry : Loaded) : Loaded :=
  match entry with
  | .dict members =>
    if isTurnLimit entry then .dict (setMember members (pyStr "value") (.str limit.text)) else entry
  | _ => entry

/-- The target container with its turn limit set. -/
def setTurnLimit (limit : TurnLimit) (container : Members) : Except DeployError Members := do
  validateChatTurnLimit (some limit)
  match get container "environment" with
  | some (.list environment) => do
    guardThat ((environment.filter isTurnLimit).length = 1)
      (.deployment "task definition must have exactly one chat turn limit")
    guardThat limit.printable .other
    pure (setMember container (pyStr "environment") (.list (environment.map (setLimitValue limit))))
  | _ => .error (.deployment "target container environment is unavailable")

/-- The target container for an image. -/
def containerForImage (image : PyStr) (limit : Option TurnLimit) (container : Members) :
    Except DeployError Members :=
  let pinned := setMember container (pyStr "image") (.str image)
  match limit with
  | none => .ok pinned
  | some limit => setTurnLimit limit pinned

/-- The containers of a definition, with the target's for an image. -/
def containersForImage (containerName image : PyStr) (limit : Option TurnLimit)
    (containers : List Members) : Except DeployError (List Members) :=
  containers.mapM fun container =>
    if isText (get container "name") containerName then containerForImage image limit container
    else .ok container

/-- An image that ends with `@` and a digest. -/
def isPinned (image : PyStr) : Bool :=
  image.any (isChar · '@') && digestPattern (image.reverse.takeWhile fun c => !isChar c '@').reverse

def taskDefinitionForImage (taskDefinition : Members) (containerName image : PyStr)
    (limit : Option TurnLimit) : Except DeployError Members := do
  guardThat (isPinned image)
    (.deployment "task definition image must be pinned by sha256 digest")
  let payload := responseFields.foldl popMember taskDefinition
  match get payload "containerDefinitions" with
  | some (.list rawContainers) => do
    let containers ← rawContainers.mapM fun container => mapping (some container) "task container"
    guardThat ((containers.filter fun container =>
        isText (get container "name") containerName).length = 1)
      (.deployment "task definition must contain exactly one target container")
    let containers ← containersForImage containerName image limit containers
    pure (setMember payload (pyStr "containerDefinitions") (.list (containers.map .dict)))
  | _ => .error (.deployment "task definition has no container definitions")

/-! ## 6. Commands -/

def words (texts : List String) : List PyStr := texts.map pyStr

section Commands

variable (config : DeploymentConfig)

/-- The command of `_aws_json`. -/
def aws (arguments : List PyStr) : List PyStr :=
  pyStr "aws" :: arguments ++ [pyStr "--region", config.region, pyStr "--output", pyStr "json",
    pyStr "--no-cli-pager"]

def getCallerIdentity : List PyStr := aws config (words ["sts", "get-caller-identity"])

def describeRepositories : List PyStr :=
  aws config (words ["ecr", "describe-repositories", "--repository-names"] ++ [config.repository])

def listImages : List PyStr :=
  aws config (words ["ecr", "list-images", "--repository-name"] ++
    [config.repository, pyStr "--filter", pyStr "tagStatus=TAGGED"])

def getLoginPassword : List PyStr :=
  words ["aws", "ecr", "get-login-password", "--region"] ++ [config.region]

def login (registry : PyStr) : List PyStr :=
  config.containerCli :: words ["login", "--username", "AWS", "--password-stdin"] ++ [registry]

def build (taggedImage context : PyStr) : List PyStr :=
  config.containerCli :: words ["build", "--platform", "linux/amd64", "--tag"] ++
    [taggedImage, context]

def push (taggedImage : PyStr) : List PyStr := [config.containerCli, pyStr "push", taggedImage]

def describeImages : List PyStr :=
  aws config (words ["ecr", "describe-images", "--repository-name"] ++
    [config.repository, pyStr "--image-ids", pyStr "imageTag=" ++ config.imageTag])

def describeImageScanFindings (digest : PyStr) : List PyStr :=
  aws config (words ["ecr", "describe-image-scan-findings", "--repository-name"] ++
    [config.repository, pyStr "--image-id", pyStr "imageDigest=" ++ digest])

def describeServices : List PyStr :=
  aws config (words ["ecs", "describe-services", "--cluster"] ++
    [config.cluster, pyStr "--services", config.service])

def describeTaskDefinition (taskDefinition : PyStr) : List PyStr :=
  aws config (words ["ecs", "describe-task-definition", "--task-definition"] ++ [taskDefinition])

def registerTask (uri : PyStr) : List PyStr :=
  aws config (words ["ecs", "register-task-definition", "--cli-input-json"] ++ [uri])

def updateService (taskDefinition : PyStr) : List PyStr :=
  aws config (words ["ecs", "update-service", "--cluster"] ++
    [config.cluster, pyStr "--service", config.service, pyStr "--task-definition", taskDefinition])

def waitServicesStable : List PyStr :=
  words ["aws", "ecs", "wait", "services-stable", "--cluster"] ++
    [config.cluster, pyStr "--services", config.service, pyStr "--region", config.region]

end Commands

/-! ## 7. What is read out of the answers -/

section Readers

variable (config : DeploymentConfig)

def checkIdentity (identity : Members) : Except DeployError Unit :=
  match get identity "Arn" with
  | some (.str arn) => do
    guardThat (isText (get identity "Account") config.accountId)
      (.deployment "AWS identity does not match the pilot account")
    guardThat (¬ pyStr ":root" <:+ arn)
      (.deployment "root credentials are not permitted for deployment")
  | _ => .error (.deployment "AWS identity does not match the pilot account")

def registryPrefix : PyStr :=
  config.accountId ++ pyStr ".dkr.ecr." ++ config.region ++ pyStr ".amazonaws.com/"

/-- The URI of the repository. -/
def readRepository (response : Members) : Except DeployError PyStr :=
  match get response "repositories" with
  | some (.list [value]) => do
    let repository ← mapping (some value) "ECR repository"
    validateRegistryConfiguration repository
    match get repository "repositoryUri" with
    | some (.str uri) => do
      guardThat (registryPrefix config <+: uri)
        (.deployment "ECR repository URI does not match the pilot account and region")
      pure uri
    | _ => .error (.deployment "ECR repository URI does not match the pilot account and region")
  | _ => .error (.deployment "ECR repository lookup did not return exactly one repository")

/-- The tag is in none of the image identities. -/
def checkTags (response : Members) : Except DeployError Unit :=
  match get response "imageIds" with
  | some (.list existing) => existing.forM fun imageId => do
    let identity ← mapping (some imageId) "ECR image identity"
    guardThat (isText (get identity "imageTag") config.imageTag = false)
      (.deployment "image tag already exists; deployment tags are immutable")
  | _ => .error (.deployment "ECR tag inventory is incomplete")

/-- The digest of the pushed image. -/
def readDigest (response : Members) : Except DeployError PyStr :=
  match get response "imageDetails" with
  | some (.list [value]) => do
    let image ← mapping (some value) "ECR image"
    match get image "imageDigest" with
    | some (.str digest) => do
      guardThat (digestPattern digest)
        (.deployment "pushed image did not resolve to a valid sha256 digest")
      pure digest
    | _ => .error (.deployment "pushed image did not resolve to a valid sha256 digest")
  | _ => .error (.deployment "pushed ECR tag did not resolve to exactly one image")

/-- `status in (None, "IN_PROGRESS", "PENDING")`. -/
def isWaiting (status : Option Loaded) : Bool :=
  match status with
  | none | some .none => true
  | status => isText status (pyStr "IN_PROGRESS") || isText status (pyStr "PENDING")

/-- What one query of the poll says: whether the scan is clean, or has to be waited for. -/
def readScan (scan : Members) : Except DeployError Bool := do
  let scanStatus ← mapping (get scan "imageScanStatus") "ECR scan status"
  let status := get scanStatus "status"
  if isText status (pyStr "COMPLETE") then do
    validateScanResult scan
    pure true
  else if isText status (pyStr "FAILED") then .error (.deployment "ECR image scan failed")
  else if isWaiting status then pure false
  else .error (.deployment "ECR returned an unknown image scan status")

/-- The same, where the query may have failed. A scan that is not there yet is waited for. -/
def scanAnswer : Except DeployError Members → Except DeployError Bool
  | .ok scan => readScan scan
  | .error (.command (some code)) =>
    if code = pyStr "ScanNotFoundException" then .ok false else .error (.command (some code))
  | .error error => .error error

/-- `_single_service`. -/
def singleService (response : Members) : Except DeployError Members := do
  guardThat ((get response "failures").any truthy = false)
    (.deployment "ECS service lookup reported failures")
  match get response "services" with
  | some (.list [value]) => do
    let service ← mapping (some value) "ECS service"
    guardThat (isText (get service "status") (pyStr "ACTIVE"))
      (.deployment "ECS service is not active")
    pure service
  | _ => .error (.deployment "ECS lookup did not return exactly one service")

/-- `_require_rollback`. -/
def requireRollback (service : Members) : Except DeployError Unit := do
  let configuration ← mapping (get service "deploymentConfiguration") "ECS deployment configuration"
  let breaker ← mapping (get configuration "deploymentCircuitBreaker")
    "ECS deployment circuit breaker"
  guardThat (isTrue (get breaker "enable") ∧ isTrue (get breaker "rollback"))
    (.deployment "ECS circuit-breaker rollback must be enabled before deployment")

def isPrimary : Loaded → Bool
  | .dict deployment => isText (get deployment "status") (pyStr "PRIMARY")
  | _ => false

/-- `_verify_deployment`. -/
def verifyDeployment (service : Members) (expected : PyStr) : Except DeployError Unit := do
  guardThat (isText (get service "taskDefinition") expected)
    (.deployment "ECS stabilized on a different task definition; promotion failed")
  match intOf (get service "desiredCount"), intOf (get service "runningCount"),
    intOf (get service "pendingCount") with
  | some desired, some running, some pending => do
    guardThat (¬ (desired < 1 ∨ running ≠ desired ∨ pending ≠ 0))
      (.deployment "ECS service is not fully healthy after promotion")
    match get service "deployments" with
    | some (.list deployments) =>
      match deployments.filter isPrimary with
      | [.dict primary] =>
        guardThat (isText (get primary "rolloutState") (pyStr "COMPLETED"))
          (.deployment "ECS primary rollout did not complete")
      | _ => .error (.deployment "ECS primary rollout did not complete")
    | _ => .error (.deployment "ECS deployment state is unavailable")
  | _, _, _ => .error (.deployment "ECS service counts are unavailable")

end Readers

/-! ## 8. The deployment -/

section Deployment

variable (levels : ℕ) (config : DeploymentConfig)

/-- A command of `_aws_json`, and its JSON. -/
def awsJson (command : List PyStr) : DeployProg Members := do
  let output ← run command none
  .ofExcept (loadJson levels output)

/-- `_wait_for_clean_scan`, with the attempts that are left. -/
def waitForCleanScan (digest : PyStr) : ℕ → DeployProg Unit
  | 0 => .raise (.deployment "ECR scan did not complete within the configured wait bound")
  | left + 1 => do
    let answer ← (awsJson levels (describeImageScanFindings config digest)).attempt
    let clean ← .ofExcept (scanAnswer answer)
    if clean then pure ()
    else do
      if left = 0 then pure () else .send (DeployAsk.sleep config.scanPollSeconds)
      waitForCleanScan digest left

/-- `_register_task_definition`. The temporary file is removed also where the command raises. -/
def registerTaskDefinition (payload : Members) : DeployProg PyStr := do
  let uri ← .ask (DeployAsk.writeTemporary (dumpJson payload)) .ofExcept
  let response ← (awsJson levels (registerTask config uri)).attempt
  .ask (DeployAsk.unlink uri) .ofExcept
  let response ← .ofExcept response
  let task ← .ofExcept (mapping (get response "taskDefinition") "registered task definition")
  .ofExcept (requiredString task "taskDefinitionArn")

/-- The checks of the configuration, and the directory that is built. -/
def checkConfiguration : DeployProg PyStr := do
  .insist (tagPattern config.imageTag)
    (.deployment "image tag must be a unique ECR-compatible value")
  .ofExcept (validateChatTurnLimit config.chatModelTurnLimit)
  .insist (¬ (config.scanPollAttempts < 1 ∨ config.scanPollSeconds < 0))
    (.deployment "scan wait bounds are invalid")
  let context ← .send (DeployAsk.resolve config.contextDirectory)
  let dockerfile ← .send (DeployAsk.isFile context "Dockerfile")
  .insist (dockerfile = true) (.deployment "deployment context must contain a Dockerfile")
  pure context

/-- Building the image and pushing it; the repository's URI and the image's digest. -/
def pushImage (context : PyStr) : DeployProg (PyStr × PyStr) := do
  let identity ← awsJson levels (getCallerIdentity config)
  .ofExcept (checkIdentity config identity)
  let response ← awsJson levels (describeRepositories config)
  let uri ← .ofExcept (readRepository config response)
  let existing ← awsJson levels (listImages config)
  .ofExcept (checkTags config existing)
  let registry := uri.takeWhile fun c => !isChar c '/'
  let answer ← run (getLoginPassword config) none
  let password := pyStrip answer
  .insist (password ≠ []) (.deployment "ECR authentication returned no token")
  let _ ← run (login config registry) (some (password ++ pyStr "\n"))
  let taggedImage := uri ++ pyStr ":" ++ config.imageTag
  let _ ← run (build config taggedImage context) none
  let _ ← run (push config taggedImage) none
  let pushed ← awsJson levels (describeImages config)
  let digest ← .ofExcept (readDigest pushed)
  pure (uri, digest)

/-- The task definition that is registered for the image. -/
def registerImage (pinnedImage : PyStr) : DeployProg PyStr := do
  let serviceResponse ← awsJson levels (describeServices config)
  let service ← .ofExcept (singleService serviceResponse)
  .ofExcept (requireRollback service)
  let previous ← .ofExcept (requiredString service "taskDefinition")
  let taskResponse ← awsJson levels (describeTaskDefinition config previous)
  let original ← .ofExcept (mapping (get taskResponse "taskDefinition") "ECS task definition")
  let registration ← .ofExcept (taskDefinitionForImage original config.containerName pinnedImage
    config.chatModelTurnLimit)
  registerTaskDefinition levels config registration

/-- The update of the service to a registered definition, and what it came to. -/
def promote (registeredArn : PyStr) : DeployProg Unit := do
  let _ ← run (updateService config registeredArn) none
  let _ ← run (waitServicesStable config) none
  let response ← awsJson levels (describeServices config)
  let service ← .ofExcept (singleService response)
  .ofExcept (requireRollback service)
  .ofExcept (verifyDeployment service registeredArn)

def pinnedImage (uri digest : PyStr) : PyStr := uri ++ pyStr "@" ++ digest

def deployPilot : DeployProg DeploymentResult := do
  let context ← checkConfiguration config
  let (uri, digest) ← pushImage levels config context
  waitForCleanScan levels config digest config.scanPollAttempts.toNat
  let registeredArn ← registerImage levels config (pinnedImage uri digest)
  promote levels config registeredArn
  pure ⟨pinnedImage uri digest, registeredArn⟩

end Deployment

end NokincFactory.DeployPilot
