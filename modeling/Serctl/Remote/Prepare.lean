import Serctl.Policy.Canonical
import Serctl.Policy.Evaluate
import Serctl.Remote.Jobs

/-!
# What the helper agrees to run

Before it runs anything, the helper checks a request to start a job: its digests, its policy, its
deadlines and identity, and the intent that it states.  What passes is one of a few fixed programs,
run by the helper's own user without a working directory.
-/

namespace Serctl.Remote

open Lib Lib.Guard List Lib.Text
open Policy (CompiledPolicy PolicyDocument PolicyError TypedIntent evaluateIntent compilePolicyJson
  unamePolicy)

/-! ## The digest of the inputs -/

def startDomain : List UInt8 := utf8Bytes "serctl-remote-start-v1" ++ [0]

/-- Bytes after their number. -/
def hashLengthPrefixed (bytes : List UInt8) : List UInt8 :=
  putU64 (UInt64.ofNat bytes.length) ++ bytes

/-- A variable. -/
def hashEnvEntry (entry : EnvEntry) : List UInt8 :=
  hashLengthPrefixed (utf8Bytes entry.name) ++ hashLengthPrefixed (utf8Bytes entry.value)

/-- A directory, if there is one. -/
def hashCwd : Option String → List UInt8
  | some cwd => 1 :: hashLengthPrefixed (utf8Bytes cwd)
  | none => [0]

/-- The text that is digested.  Neither the claimed digest nor the receipt token is in it, and the
    policy is represented by its digest. -/
def startPreimage (start : StartFrame) : List UInt8 :=
  startDomain ++ (start.jobId.val ++ (start.profileId.val ++ (putU64 start.profileGeneration ++
    (start.policyDigest.val ++ (putU64 start.remoteDeadlineUnixMs ++
    (putU64 start.relayDeadlineUnixMs ++ (putU64 start.resultRetentionUnixMs ++
    (putU32 start.runAsUid ++ (putU64 start.maxOutputBytes ++
    (hashLengthPrefixed (utf8Bytes start.program) ++
    (putU64 (UInt64.ofNat start.argv.length) ++
    (start.argv.flatMap (fun argument => hashLengthPrefixed (utf8Bytes argument)) ++
    (putU64 (UInt64.ofNat start.env.length) ++ (start.env.flatMap hashEnvEntry ++
    hashCwd start.cwd))))))))))))))

/-- Lengths that fit a word, as those of all texts and lists in memory do. -/
structure StartFrame.Sized (start : StartFrame) : Prop where
  program : byteLen start.program < 2 ^ 64
  argCount : start.argv.length < 2 ^ 64
  argv : ∀ a ∈ start.argv, byteLen a < 2 ^ 64
  envCount : start.env.length < 2 ^ 64
  env : ∀ e ∈ start.env, byteLen e.name < 2 ^ 64 ∧ byteLen e.value < 2 ^ 64
  cwd : ∀ c ∈ start.cwd, byteLen c < 2 ^ 64

/-- The requests start the same program with the same inputs for the same job. -/
structure SameInputs (a b : StartFrame) : Prop where
  jobId : a.jobId = b.jobId
  profileId : a.profileId = b.profileId
  profileGeneration : a.profileGeneration = b.profileGeneration
  policyDigest : a.policyDigest = b.policyDigest
  remoteDeadline : a.remoteDeadlineUnixMs = b.remoteDeadlineUnixMs
  relayDeadline : a.relayDeadlineUnixMs = b.relayDeadlineUnixMs
  resultRetention : a.resultRetentionUnixMs = b.resultRetentionUnixMs
  runAsUid : a.runAsUid = b.runAsUid
  maxOutputBytes : a.maxOutputBytes = b.maxOutputBytes
  program : a.program = b.program
  argv : a.argv = b.argv
  env : a.env = b.env
  cwd : a.cwd = b.cwd

theorem putU64_prefixFree : PrefixFree (fun _ => True) putU64 := by
  intro a b r s _ _ h
  have ha : PayloadReader.u64 (putU64 a ++ r) = .ok (a, r) := u64_eq_ok.mpr rfl
  rw [u64_eq_ok.mpr h] at ha
  cases ha
  exact ⟨rfl, rfl⟩

theorem putU32_prefixFree : PrefixFree (fun _ => True) putU32 := by
  intro a b r s _ _ h
  have ha : PayloadReader.u32 (putU32 a ++ r) = .ok (a, r) := u32_eq_ok.mpr rfl
  rw [u32_eq_ok.mpr h] at ha
  cases ha
  exact ⟨rfl, rfl⟩

/-- Counts in front of what they count are equal if they fit a word. -/
theorem putU64_ofNat_inj {m n : Nat} {r s : List UInt8} (hm : m < 2 ^ 64) (hn : n < 2 ^ 64)
    (h : putU64 (UInt64.ofNat m) ++ r = putU64 (UInt64.ofNat n) ++ s) : m = n ∧ r = s := by
  obtain ⟨hword, hrest⟩ := putU64_prefixFree _ _ _ _ trivial trivial h
  have hnat := congrArg UInt64.toNat hword
  rw [UInt64.toNat_ofNat', UInt64.toNat_ofNat', Nat.mod_eq_of_lt hm, Nat.mod_eq_of_lt hn] at hnat
  exact ⟨hnat, hrest⟩

theorem hashText_prefixFree : PrefixFree (fun text => byteLen text < 2 ^ 64)
    (fun text => hashLengthPrefixed (utf8Bytes text)) := by
  intro a b r s ha hb h
  simp only [hashLengthPrefixed, length_utf8Bytes, append_assoc] at h
  obtain ⟨hlen, hrest⟩ := putU64_ofNat_inj ha hb h
  -- texts of the same length stand in front
  obtain ⟨hbytes, hrest⟩ := append_inj hrest (by simp only [length_utf8Bytes, hlen])
  exact ⟨utf8Bytes_injective hbytes, hrest⟩

theorem hashEnvEntry_prefixFree : PrefixFree
    (fun e : EnvEntry => byteLen e.name < 2 ^ 64 ∧ byteLen e.value < 2 ^ 64)
    hashEnvEntry := by
  intro a b r s ha hb h
  simp only [hashEnvEntry, append_assoc] at h
  obtain ⟨hname, hbehind⟩ := hashText_prefixFree _ _ _ _ ha.1 hb.1 h
  obtain ⟨hvalue, hrest⟩ := hashText_prefixFree _ _ _ _ ha.2 hb.2 hbehind
  refine ⟨?_, hrest⟩
  cases a
  cases b
  rw [EnvEntry.mk.injEq]
  exact ⟨hname, hvalue⟩

theorem hashCwd_injective {a b : Option String} (ha : ∀ c ∈ a, byteLen c < 2 ^ 64)
    (hb : ∀ c ∈ b, byteLen c < 2 ^ 64) (h : hashCwd a = hashCwd b) : a = b := by
  cases a with
  | none =>
    cases b with
    | none => rfl
    | some d => cases h
  | some c =>
    cases b with
    | none => cases h
    | some d =>
      obtain ⟨-, h⟩ := List.cons.inj h
      have happend : hashLengthPrefixed (utf8Bytes c) ++ [] =
          hashLengthPrefixed (utf8Bytes d) ++ [] := by rw [h]
      rw [(hashText_prefixFree c d _ _ (ha c rfl) (hb d rfl) happend).1]

/-- **The digested text names the inputs.**  Every field has a fixed length or its length in
    front. -/
theorem startPreimage_injective {a b : StartFrame} (ha : a.Sized) (hb : b.Sized)
    (h : startPreimage a = startPreimage b) : SameInputs a b := by
  simp only [startPreimage] at h
  have h := append_cancel_left h
  obtain ⟨hjob, h⟩ := Bytes.append_left_inj h
  obtain ⟨hprofile, h⟩ := Bytes.append_left_inj h
  obtain ⟨hgeneration, h⟩ := putU64_prefixFree _ _ _ _ trivial trivial h
  obtain ⟨hpolicy, h⟩ := Bytes.append_left_inj h
  obtain ⟨hremote, h⟩ := putU64_prefixFree _ _ _ _ trivial trivial h
  obtain ⟨hrelay, h⟩ := putU64_prefixFree _ _ _ _ trivial trivial h
  obtain ⟨hretention, h⟩ := putU64_prefixFree _ _ _ _ trivial trivial h
  obtain ⟨huid, h⟩ := putU32_prefixFree _ _ _ _ trivial trivial h
  obtain ⟨houtput, h⟩ := putU64_prefixFree _ _ _ _ trivial trivial h
  obtain ⟨hprogram, h⟩ := hashText_prefixFree _ _ _ _ ha.program hb.program h
  obtain ⟨hargCount, h⟩ := putU64_ofNat_inj ha.argCount hb.argCount h
  obtain ⟨hargv, h⟩ := hashText_prefixFree.flatMap ha.argv hb.argv hargCount h
  obtain ⟨henvCount, h⟩ := putU64_ofNat_inj ha.envCount hb.envCount h
  obtain ⟨henv, h⟩ := hashEnvEntry_prefixFree.flatMap ha.env hb.env henvCount h
  exact ⟨hjob, hprofile, hgeneration, hpolicy, hremote, hrelay, hretention, huid, houtput,
    hprogram, hargv, henv, hashCwd_injective ha.cwd hb.cwd h⟩

/-- The checks of a text leave it far below the limit of a word. -/
theorem byteLen_lt_of_validateText {field value : String} {minimum maximum : Nat}
    (hmaximum : maximum < 2 ^ 64) (h : validateText field value minimum maximum = .ok ()) :
    byteLen value < 2 ^ 64 := by
  simp only [validateText, validateRange, bind_eq_ok, rejectIf_eq_ok, not_not] at h
  obtain ⟨_, hrange, -⟩ := h
  exact Nat.lt_of_le_of_lt hrange.2 hmaximum

variable {start : StartFrame}

theorem StartFrame.sized_of_validate (h : start.validate = .ok ()) :
    start.Sized := by
  simp only [StartFrame.validate, bind_eq_ok, rejectIf_eq_ok, gt_iff_lt, not_lt] at h
  obtain ⟨_, -, _, -, _, -, _, -, _, -, _, -, _, -, _, -, _, -, _, hprogram, _, hargCount, _, hargv,
    _, -, _, henvCount, _, henv, _, -, _, hcwd, -⟩ := h
  refine ⟨byteLen_lt_of_validateText (by decide) hprogram,
    Nat.lt_of_le_of_lt hargCount (by decide), fun argument hmem => ?_,
    Nat.lt_of_le_of_lt henvCount (by decide), fun entry hmem => ?_, fun cwd hmem => ?_⟩
  · obtain ⟨_, hargument⟩ := collect_ok_of_mem hargv hmem
    exact byteLen_lt_of_validateText (by decide) hargument
  · obtain ⟨_, hentry⟩ := collect_ok_of_mem henv hmem
    simp only [EnvEntry.validate, bind_eq_ok] at hentry
    obtain ⟨_, hname, _, hvalue, -⟩ := hentry
    exact ⟨byteLen_lt_of_validateText (by decide) hname,
      byteLen_lt_of_validateText (by decide) hvalue⟩
  · rw [hmem] at hcwd
    exact byteLen_lt_of_validateText (by decide) hcwd

/-- The digest of everything that a job is started with. -/
def computeStartInputDigest (start : StartFrame) : Digest32 := Sha256.digest (startPreimage start)

/-- The claimed digest is not part of what is digested. -/
theorem computeStartInputDigest_setInput (start : StartFrame) (digest : Digest32) :
    computeStartInputDigest { start with inputDigest := digest } =
      computeStartInputDigest start := rfl

namespace Helper

/-! ## The host -/

/-- What a path names. -/
inductive FileKind where
  | file
  | directory
  | symlink
  | other
  deriving DecidableEq, Repr

/-- What is known about a file. -/
structure Metadata where
  kind : FileKind
  uid : UInt32
  mode : UInt32
  deriving DecidableEq, Repr

/-- The answers of the host to the calls of one check; `none` where a call fails. -/
structure Host where
  /-- `/proc/self/status`. -/
  procStatus : Option String
  /-- Milliseconds since the epoch, unless the clock is before it. -/
  unixMs : Option UInt64
  symlinkMetadata : String → Option Metadata
  /-- With the message of the operating system where it fails. -/
  metadata : String → Except String Metadata
  canonicalize : String → Option String
  /-- `/etc/passwd`. -/
  passwd : Option String
  pathExists : String → Bool
  createDir : String → Bool

/-- The value of an answer, or an error. -/
def orContext {α : Type} (answer : Option α) (message : String) : Except String α :=
  match answer with
  | some value => .ok value
  | none => .error message

theorem orContext_eq_ok {α : Type} {answer : Option α} {message : String} {a : α} :
    orContext answer message = .ok a ↔ answer = some a := by
  cases answer <;> simp [orContext]

/-- A reading of the wall clock. -/
def unixMs (reading : Option UInt64) : Except String UInt64 :=
  orContext reading "system clock precedes Unix epoch"

/-- The second number of the line `Uid:` in the status of the process. -/
def effectiveUid (procStatus : Option String) : Except String UInt32 := do
  let status ← orContext procStatus "read process identity"
  let line ← orContext ((lines status).find? (startsWith · "Uid:"))
    "process UID is unavailable"
  let values := words (String.ofList (line.toList.drop 4))
  let _real ← orContext values[0]? "real UID is unavailable"
  let effective ← orContext values[1]? "effective UID is unavailable"
  let value ← orContext (parseNat32 effective) "parse effective UID"
  return UInt32.ofNat value

/-- The programs that have a fixed executable. -/
def resolveExecutable (program : String) : Except String String :=
  if program = "id" then .ok "/usr/bin/id"
  else if program = "true" then .ok "/usr/bin/true"
  else if program = "uname" then .ok "/usr/bin/uname"
  else if program = "uptime" then .ok "/usr/bin/uptime"
  else if program = "whoami" then .ok "/usr/bin/whoami"
  else .error "program has no fixed Linux executable mapping"

/-- A program that only root can change. -/
def validateExecutable (host : Host) (path : String) : Except String Unit := do
  let metadata ← orContext (host.symlinkMetadata path) s!"inspect fixed executable {path}"
  rejectIf (metadata.kind ≠ .file) "fixed executable is not a regular file"
  rejectIf (metadata.kind = .symlink) "fixed executable is a symlink"
  rejectIf (metadata.uid ≠ 0) "fixed executable is not owned by root"
  rejectIf (metadata.mode &&& 0o022 ≠ 0) "fixed executable is group/other writable"
  rejectIf (metadata.mode &&& 0o6000 ≠ 0) "fixed executable carries set-id bits"
  rejectIf (metadata.mode &&& 0o111 = 0) "fixed executable is not executable"

/-- The path begins at the root. -/
def isAbsolute (path : String) : Bool := startsWith path "/"

/-- The components of a path: empty ones and those for the directory itself do not count. -/
def components (path : String) : List String :=
  (split path '/').filter fun component => component ≠ "" ∧ component ≠ "."

/-- How absolute paths are compared: by their components, not by their spelling. -/
def samePath (path path' : String) : Bool :=
  isAbsolute path = isAbsolute path' ∧ components path = components path'

/-- The directory is its own canonical path. -/
def validateCwd (host : Host) (requested : String) : Except String String := do
  rejectIf (isAbsolute requested = false) "working directory is not absolute"
  let canonical ← orContext (host.canonicalize requested) "canonicalize working directory"
  rejectIf (samePath canonical requested = false) "working directory contains aliases or symlinks"
  let metadata ← host.metadata canonical
  rejectIf (metadata.kind ≠ .directory) "working directory is not a directory"
  return canonical

/-- `Path::join` with one relative component. -/
def joinPath (directory name : String) : String :=
  if endsWith directory "/" then directory ++ name else directory ++ "/" ++ name

/-- The directory of the journals. -/
structure JobStore where
  root : String
  deriving DecidableEq, Repr

/-- The root of a store is an absolute path. -/
def JobStore.new (root : String) : Except String JobStore := do
  rejectIf (isAbsolute root = false) "job store path must be absolute"
  rejectIf ((split root '/').contains ".." = true)
    "job store path contains traversal components"
  rejectIf (byteLen root > 4096) "job store path is too long"
  return ⟨root⟩

/-- The home of the first account with the number. -/
def homeOf (passwd : String) (uid : UInt32) : Option String :=
  (lines passwd).findSome? fun line =>
    let fields := split line ':'
    if fields.length = 7 ∧ (fields[2]?.bind parseNat32) = some uid.toNat then fields[5]?
    else none

/-- One of the fixed directories: made if it is not there, and private. -/
def validateJobDirectory (host : Host) (uid : UInt32) (path : String) : Except String Unit := do
  rejectIf (host.pathExists path = false ∧ host.createDir path = false)
    s!"create fixed job directory {path}"
  let metadata ← orContext (host.symlinkMetadata path) s!"inspect fixed job directory {path}"
  rejectIf (metadata.kind ≠ .directory) "fixed job path is not a stable directory"
  rejectIf (metadata.uid ≠ uid) "fixed job directory owner mismatch"
  rejectIf (metadata.mode &&& 0o077 ≠ 0) "fixed job directory is not private"

/-- The store in the home of the user. -/
def fixedJobStore (host : Host) (uid : UInt32) : Except String JobStore := do
  let passwd ← orContext host.passwd "read local account database"
  rejectIf (byteLen passwd > 1024 * 1024) "local account database is too large"
  let home ← orContext (homeOf passwd uid) "effective UID has no local home mapping"
  rejectIf (isAbsolute home = false) "account home is not absolute"
  let metadata ← orContext (host.symlinkMetadata home) "inspect account home"
  rejectIf (metadata.kind ≠ .directory) "account home is not a stable directory"
  rejectIf (metadata.uid ≠ uid) "account home owner mismatch"
  rejectIf (metadata.mode &&& 0o022 ≠ 0) "account home is group/other writable"
  let serctl := joinPath home ".serctl"
  let jobs := joinPath serctl "jobs"
  validateJobDirectory host uid serctl
  validateJobDirectory host uid jobs
  JobStore.new jobs

/-! ## The check -/

/-- A job that passed all checks. -/
structure PreparedJob where
  executable : String
  cwd : Option String
  store : JobStore
  identity : JobIdentity
  deadlines : JobDeadlines
  deriving DecidableEq, Repr

/-- The intent that a request states, at a time and for a user. -/
def typedIntent (start : StartFrame) (uid : UInt32) (now : UInt64) : TypedIntent where
  schemaVersion := Policy.intentSchemaVersion
  capability := .processRun
  runAs := .uid uid.toNat
  program := some start.program
  argv := start.argv
  env := start.env.map fun entry => ⟨entry.name, entry.value⟩
  paths := (start.cwd.map fun cwd => ⟨.posix, cwd⟩).toList
  budget := ⟨0, start.maxOutputBytes.toNat, 1, 1⟩
  deadlineMs := (saturatingSub start.remoteDeadlineUnixMs now).toNat

/-- The deadlines of a request. -/
def deadlinesOf (start : StartFrame) : JobDeadlines :=
  ⟨start.remoteDeadlineUnixMs, start.relayDeadlineUnixMs, start.resultRetentionUnixMs⟩

/-- The job that is requested. -/
def identityOf (start : StartFrame) : JobIdentity :=
  ⟨start.jobId, start.profileId, start.profileGeneration, start.policyDigest, start.inputDigest⟩

/-- The result of an optional step. -/
def transpose {α : Type} : Option (Except String α) → Except String (Option α)
  | some result => result.map some
  | none => .ok none

/-- Check a request; `parse` is the parser of policy documents. -/
def prepare (parse : List UInt8 → Except String PolicyDocument) (host : Host)
    (start : StartFrame) : Except String PreparedJob := do
  rejectIf (computeStartInputDigest start ≠ start.inputDigest) "input digest mismatch"
  let policy ← (Policy.compilePolicyJson parse start.policyJson).mapError fun _ => "compile policy"
  let policyDigest ← orContext (hexDecode policy.digest.asStr) "decode policy digest"
  rejectIf (policyDigest ≠ start.policyDigest.val) "policy digest mismatch"
  let now ← unixMs host.unixMs
  (deadlinesOf start).validateAt now
  let uid ← effectiveUid host.procStatus
  rejectIf (uid = 0) "remote helper refuses UID 0"
  rejectIf (start.runAsUid ≠ uid) "requested run_as does not match helper identity"
  let explanation := policy.dryRun (typedIntent start uid now)
  rejectIf (explanation.allowed = false)
    s!"policy denied typed intent: {explanation.reasonCode.asStr}"
  let executable ← resolveExecutable start.program
  validateExecutable host executable
  let cwd ← transpose (start.cwd.map (validateCwd host))
  let store ← fixedJobStore host uid
  return {
    executable, cwd, store
    identity := identityOf start
    deadlines := deadlinesOf start }

/-! ## What is run -/

/-- A command with an environment of its own. -/
structure Command where
  program : String
  args : List String
  env : List (String × String)
  currentDir : Option String
  deriving DecidableEq, Repr

/-- Set a variable; a variable that is set again has the later value. -/
def setVariable (env : List (String × String)) (entry : EnvEntry) : List (String × String) :=
  env.filter (fun pair => pair.1 ≠ entry.name) ++ [(entry.name, entry.value)]

/-- What is run. -/
def makeCommand (executable : String) (start : StartFrame) (cwd : Option String) : Command where
  program := executable
  args := start.argv
  -- the inherited environment is cleared first
  env := start.env.foldl setVariable []
  currentDir := cwd

/-- No later variable changes the names that are set, and every value is one of the list. -/
theorem mem_foldl_setVariable {entries : List EnvEntry} {env : List (String × String)}
    {pair : String × String} (h : pair ∈ entries.foldl setVariable env) :
    pair ∈ env ∨ ∃ e ∈ entries, pair = (e.name, e.value) := by
  induction entries generalizing env with
  | nil => exact .inl h
  | cons e entries ih =>
    rcases ih h with hset | ⟨e', he', hpair⟩
    · simp only [setVariable, mem_append, mem_filter, mem_singleton] at hset
      rcases hset with ⟨hold, _⟩ | hnew
      · exact .inl hold
      · exact .inr ⟨e, by simp, hnew⟩
    · exact .inr ⟨e', mem_cons_of_mem e he', hpair⟩

/-- What a policy and the bounds of all policies say about a command that was asked for at a time,
    for a user. -/
structure Sanctioned (policy : CompiledPolicy) (start : StartFrame) (uid : UInt32) (now : UInt64)
    (command : Command) : Prop where
  capability : Policy.Capability.processRun ∈ policy.ir.capabilities
  runAs : Policy.RunAs.uid uid.toNat ∈ policy.ir.runAs
  /-- The executable is the fixed path of an allowed name, and the name is the one asked for. -/
  program : start.program ∈ policy.ir.processPrograms ∧
    resolveExecutable start.program = .ok command.program
  currentDir : command.currentDir = none
  args : command.args = start.argv
  argCount : command.args.length ≤ Policy.maxArgCount
  argTotalBytes : (command.args.map byteLen).sum ≤ Policy.maxArgTotalBytes
  arg : ∀ a ∈ command.args, byteLen a ≤ Policy.maxArgBytes ∧
    Policy.isShellCommandFlag a = false ∧ hasControl a = false
  envKeys : ∀ pair ∈ command.env, pair.1 ∈ policy.ir.processEnvKeys
  env : ∀ pair ∈ command.env, (⟨pair.1, pair.2⟩ : EnvEntry) ∈ start.env ∧
    (⟨pair.1, pair.2⟩ : Policy.EnvVar).Bounded
  outputBytes : start.maxOutputBytes.toNat ≤ policy.ir.limits.maxOutputBytes
  deadline : now < start.remoteDeadlineUnixMs ∧
    start.remoteDeadlineUnixMs.toNat - now.toNat ≤ policy.ir.limits.maxDeadlineMs

/-- The texts are not two different ones with the same digest. -/
def NoCollision (a b : List UInt8) : Prop := Sha256.hash a = Sha256.hash b → a = b

/-- The digests of the request are those of its inputs and of the policy, and of no others. -/
structure DigestsExact (policy : CompiledPolicy) (start : StartFrame) : Prop where
  input : start.inputDigest = computeStartInputDigest start
  inputOnly : ∀ other : StartFrame, other.Sized →
    NoCollision (startPreimage other) (startPreimage start) →
    computeStartInputDigest other = start.inputDigest → SameInputs other start
  policyDigest : start.policyDigest.val =
    Sha256.hash (Policy.policyDigestDomain ++ Policy.canonicalJson policy.ir)
  policyOnly : ∀ ir, NoCollision (Policy.policyDigestDomain ++ Policy.canonicalJson ir)
      (Policy.policyDigestDomain ++ Policy.canonicalJson policy.ir) →
    Sha256.hash (Policy.policyDigestDomain ++ Policy.canonicalJson ir) = start.policyDigest.val →
      ir = policy.ir

variable {parse : List UInt8 → Except String PolicyDocument}

/-- What an accepted request has passed. -/
theorem prepare_eq_ok {host : Host}
    {prepared : PreparedJob} (h : prepare parse host start = .ok prepared) :
    ∃ policy uid now, computeStartInputDigest start = start.inputDigest ∧
      compilePolicyJson parse start.policyJson = .ok policy ∧
      hexDecode policy.digest.asStr = some start.policyDigest.val ∧
      unixMs host.unixMs = .ok now ∧ (deadlinesOf start).validateAt now = .ok () ∧
      effectiveUid host.procStatus = .ok uid ∧ uid ≠ 0 ∧ start.runAsUid = uid ∧
      evaluateIntent policy.ir (typedIntent start uid now) = .ok () ∧
      resolveExecutable start.program = .ok prepared.executable ∧
      (start.cwd = none → prepared.cwd = none) ∧ prepared.identity = identityOf start ∧
      prepared.deadlines = deadlinesOf start := by
  simp only [prepare, bind_eq_ok, rejectIf_eq_ok, pure_eq_ok, mapError_eq_ok, not_not] at h
  obtain ⟨_, hinput, policy, hcompile, digest, hdigest, _, hpolicy, now, hnow, _, hdeadlines,
    h⟩ := h
  obtain ⟨uid, huid, _, hroot, _, hrunAs, _, hallowed, executable, hexecutable, h⟩ := h
  obtain ⟨_, _, cwd, hcwd, store, _, rfl⟩ := h
  have hdigest' : hexDecode policy.digest.asStr = some start.policyDigest.val := by
    rw [← hpolicy]
    exact orContext_eq_ok.mp hdigest
  have hexplain : (policy.explain (typedIntent start uid now)).allowed = true := by
    simpa [CompiledPolicy.dryRun] using hallowed
  have hevaluate := Policy.evaluateIntent_of_explain_allowed hexplain
  refine ⟨policy, uid, now, hinput, hcompile, hdigest', hnow, hdeadlines, huid, hroot, hrunAs,
    hevaluate, hexecutable, ?_, rfl, rfl⟩
  intro hnone
  rw [hnone] at hcwd
  exact (Except.ok.inj hcwd).symm

variable {path : String}

/-- The fixed programs are their own normal forms. -/
theorem normalize_of_resolveExecutable {program : String}
    (h : resolveExecutable program = .ok path) :
    Policy.normalizeProgramIdentifier program = .ok program := by
  unfold resolveExecutable at h
  split_ifs at h with h1 h2 h3 h4 h5
  · rw [h1]; decide
  · rw [h2]; decide
  · rw [h3]; decide
  · rw [h4]; decide
  · rw [h5]; decide

variable {uid : UInt32} {now : UInt64}

/-- An accepted intent names no path, so there is no working directory. -/
theorem cwd_eq_none_of_paths (h : (typedIntent start uid now).paths = []) : start.cwd = none := by
  cases hcwd : start.cwd with
  | none => rfl
  | some cwd => simp [typedIntent, hcwd] at h

/-- The lengths of an accepted request are bounded by the policy. -/
theorem sized_of_bounded (hresolve : resolveExecutable start.program = .ok path)
    (h : (typedIntent start uid now).Bounded) (hcwd : start.cwd = none) : start.Sized := by
  have hargs : Policy.maxArgCount < 2 ^ 64 ∧ Policy.maxArgBytes < 2 ^ 64 := by decide
  have henv : Policy.maxEnvCount < 2 ^ 64 ∧ Policy.maxEnvNameBytes < 2 ^ 64 ∧
      Policy.maxEnvValueBytes < 2 ^ 64 := by decide
  constructor
  case program =>
    unfold resolveExecutable at hresolve
    split_ifs at hresolve with h1 h2 h3 h4 h5
    · rw [h1]; decide
    · rw [h2]; decide
    · rw [h3]; decide
    · rw [h4]; decide
    · rw [h5]; decide
  case argCount => exact h.argCount.trans_lt hargs.1
  case argv => exact fun a ha => (h.argBytes a ha).trans_lt hargs.2
  case envCount =>
    have hcount := h.envCount
    simp only [typedIntent, length_map] at hcount
    exact hcount.trans_lt henv.1
  case env =>
    intro e he
    have hbounded := h.env ⟨e.name, e.value⟩ (mem_map.mpr ⟨e, he, rfl⟩)
    exact ⟨hbounded.name.trans_lt henv.2.1, hbounded.value.trans_lt henv.2.2⟩
  case cwd => simp [hcwd]

theorem sanctioned_of_evaluateIntent {policy : CompiledPolicy}
    (hevaluate : evaluateIntent policy.ir (typedIntent start uid now) = .ok ())
    (hresolve : resolveExecutable start.program = .ok path)
    (hdeadlines : (deadlinesOf start).validateAt now = .ok ()) :
    Sanctioned policy start uid now (makeCommand path start none) := by
  have haccepted := Policy.accepted_of_evaluateIntent hevaluate
  have hbounded := Policy.bounded_of_evaluateIntent hevaluate
  obtain ⟨name, hname, hallowed, -⟩ := haccepted.program start.program rfl
  rw [normalize_of_resolveExecutable hresolve] at hname
  obtain rfl := Except.ok.inj hname
  -- every variable of the command is one of the request
  have henv : ∀ pair ∈ (makeCommand path start none).env,
      (⟨pair.1, pair.2⟩ : EnvEntry) ∈ start.env := by
    intro pair hpair
    rcases mem_foldl_setVariable hpair with hnone | ⟨e, he, rfl⟩
    · cases hnone
    · exact he
  have hvar : ∀ pair ∈ (makeCommand path start none).env,
      (⟨pair.1, pair.2⟩ : Policy.EnvVar) ∈ (typedIntent start uid now).env :=
    fun pair hpair => mem_map.mpr ⟨_, henv pair hpair, rfl⟩
  constructor
  case capability => exact haccepted.capability
  case runAs => exact haccepted.runAs
  case program => exact ⟨hallowed, hresolve⟩
  case currentDir => rfl
  case args => rfl
  case argCount => exact hbounded.argCount
  case argTotalBytes => exact hbounded.argTotalBytes
  case arg => exact fun a ha => ⟨hbounded.argBytes a ha, haccepted.argv a ha⟩
  case envKeys => exact fun pair hpair => haccepted.envKeys _ (hvar pair hpair)
  case env => exact fun pair hpair => ⟨henv pair hpair, hbounded.env _ (hvar pair hpair)⟩
  case outputBytes => exact haccepted.outputBytes
  case deadline =>
    simp only [JobDeadlines.validateAt, bind_eq_ok, rejectIf_eq_ok, not_not] at hdeadlines
    obtain ⟨_, hfuture, _⟩ := hdeadlines
    have hremaining := haccepted.deadline
    have hle : now ≤ start.remoteDeadlineUnixMs := UInt64.le_of_lt hfuture
    simp only [typedIntent, saturatingSub, if_pos hle, UInt64.toNat_sub_of_le _ _ hle]
      at hremaining
    exact ⟨hfuture, hremaining⟩

theorem digestsExact_of_prepare {policy : CompiledPolicy} (hsized : start.Sized)
    (hinput : computeStartInputDigest start = start.inputDigest)
    (hcompile : compilePolicyJson parse start.policyJson = .ok policy)
    (hdigest : hexDecode policy.digest.asStr = some start.policyDigest.val) :
    DigestsExact policy start := by
  simp only [compilePolicyJson, bind_eq_ok] at hcompile
  obtain ⟨_, _, document, _, hcompile⟩ := hcompile
  rw [Policy.eq_policy_of_compilePolicy hcompile] at hdigest
  have hpolicy : start.policyDigest.val =
      Sha256.hash (Policy.policyDigestDomain ++ Policy.canonicalJson policy.ir) := by
    simpa [Policy.PolicyIr.policy] using hdigest.symm
  refine ⟨hinput.symm, ?_, hpolicy, ?_⟩
  · intro other hother hfree hsame
    rw [← hinput] at hsame
    exact startPreimage_injective hother hsized (hfree (Subtype.ext_iff.mp hsame))
  · intro ir hfree hsame
    rw [hpolicy] at hsame
    exact Policy.canonicalJson_injective (append_cancel_left (hfree hsame))

/-- **What the helper agrees to run.**  A request that `prepare` accepts asks for a fixed program
    that its policy allows, under the helper's own user, which is not root, without a working
    directory and within every bound of the policy; and its digests are those of exactly these
    inputs and this policy. -/
theorem prepared_command_sanctioned (parse : List UInt8 → Except String PolicyDocument)
    (host : Host) (start : StartFrame) (prepared : PreparedJob)
    (h : prepare parse host start = .ok prepared) :
    ∃ policy uid now, Policy.compilePolicyJson parse start.policyJson = .ok policy ∧
      effectiveUid host.procStatus = .ok uid ∧ unixMs host.unixMs = .ok now ∧ uid ≠ 0 ∧
      start.runAsUid = uid ∧
      Sanctioned policy start uid now (makeCommand prepared.executable start prepared.cwd) ∧
      DigestsExact policy start := by
  obtain ⟨policy, uid, now, hinput, hcompile, hdigest, hnow, hdeadlines, huid, hroot, hrunAs,
    hevaluate, hresolve, hcwd, -, -⟩ := prepare_eq_ok h
  have hceiling : policy.ir.allowedPaths = ∅ := by
    simp only [compilePolicyJson, bind_eq_ok] at hcompile
    obtain ⟨_, _, document, _, hcompile⟩ := hcompile
    exact (Policy.narrowed_of_compilePolicy hcompile).paths
  have hnone : start.cwd = none :=
    cwd_eq_none_of_paths ((Policy.accepted_of_evaluateIntent hevaluate).paths hceiling)
  have hsized := sized_of_bounded hresolve (Policy.bounded_of_evaluateIntent hevaluate) hnone
  rw [hcwd hnone]
  exact ⟨policy, uid, now, hcompile, huid, hnow, hroot, hrunAs,
    sanctioned_of_evaluateIntent hevaluate hresolve hdeadlines,
    digestsExact_of_prepare hsized hinput hcompile hdigest⟩

/-- The text of `unameDocument`. -/
def unameJson : List UInt8 := utf8Bytes
  ("\x7b\"schema_version\":1,\"base\":\"red\",\"run_as\":[\x7b\"kind\":\"uid\",\"value\":1000" ++
    "\x7d],\"limits\":\x7b\"max_deadline_ms\":60000\x7d,\"process\":\x7b\"programs\":[\"UNAME" ++
    ".exe\",\"whoami\"]\x7d,\"deny\":[\x7b\"kind\":\"capability\",\"capability\":\"process_inspect\"" ++
    "\x7d,\x7b\"kind\":\"program\",\"name\":\"whoami\"\x7d]\x7d")

/-- A parser that knows one document. -/
def unameParse (bytes : List UInt8) : Except String PolicyDocument :=
  if bytes = unameJson then .ok Policy.unameDocument else .error "expected value"

/-- A host where user 1000 has a home, at a time. -/
def unameHost : Host where
  procStatus := some "Name:\tserctl-remote\nUid:\t1000\t1000\t1000\t1000\n"
  unixMs := some 1000000
  symlinkMetadata path :=
    if path = "/usr/bin/uname" then some ⟨.file, 0, 0o100755⟩
    else if path = "/home/op" then some ⟨.directory, 1000, 0o40750⟩
    else if path = "/home/op/.serctl" ∨ path = "/home/op/.serctl/jobs" then
      some ⟨.directory, 1000, 0o40700⟩
    else none
  metadata _ := .error "No such file or directory (os error 2)"
  canonicalize _ := none
  passwd := some "root:x:0:0:root:/root:/bin/sh\nop:x:1000:1000::/home/op:/bin/sh\n"
  pathExists _ := true
  createDir _ := false

/-- A request for `uname -a`, up to the digest of its inputs. -/
def unameRequest : StartFrame where
  jobId := .fill 16 1
  profileId := .fill 16 2
  profileGeneration := 7
  policyDigest := Sha256.digest
    (Policy.policyDigestDomain ++ Policy.canonicalJson Policy.unamePolicy.ir)
  inputDigest := Bytes.zero 32
  remoteDeadlineUnixMs := 1030000
  relayDeadlineUnixMs := 1040000
  resultRetentionUnixMs := 2000000
  runAsUid := 1000
  maxOutputBytes := 4096
  program := "uname"
  argv := ["-a"]
  env := [⟨"LANG", "C"⟩, ⟨"TZ", "UTC"⟩]
  cwd := none
  policyJson := unameJson
  receiptToken := .fill 32 4

/-- The request with its digest. -/
def unameStart : StartFrame :=
  { unameRequest with inputDigest := computeStartInputDigest unameRequest }

/-- What is made of it. -/
def unamePrepared : PreparedJob where
  executable := "/usr/bin/uname"
  cwd := none
  store := ⟨"/home/op/.serctl/jobs"⟩
  identity := identityOf unameStart
  deadlines := ⟨1030000, 1040000, 2000000⟩

theorem length_unameJson : unameJson.length ≤ Policy.maxPolicyDocumentBytes := by
  rw [unameJson, length_utf8Bytes]
  decide +kernel

theorem unameStart_prepared : prepare unameParse unameHost unameStart = .ok unamePrepared := by
  have hcompile : compilePolicyJson unameParse unameStart.policyJson =
      .ok unamePolicy.ir.policy := by
    simp only [compilePolicyJson, bind_eq_ok, rejectIf_eq_ok, mapError_eq_ok]
    refine ⟨(), ?_, Policy.unameDocument, ?_, Policy.compilePolicy_jsonBackend (by decide)⟩
    · simp only [unameStart, unameRequest, gt_iff_lt, not_lt]
      exact length_unameJson
    · simp only [unameStart, unameRequest, unameParse, if_true]
  have hallowed : (unamePolicy.ir.policy.dryRun (typedIntent unameStart 1000 1000000)).allowed
      = true := by decide
  have hinput : computeStartInputDigest unameStart = unameStart.inputDigest :=
    computeStartInputDigest_setInput unameRequest (computeStartInputDigest unameRequest)
  have hpolicy : Sha256.hash (Policy.policyDigestDomain ++ Policy.canonicalJson unamePolicy.ir) =
      unameStart.policyDigest.val := by
    rw [← Sha256.val_digest]
    simp only [unameStart, unameRequest]
  simp only [prepare, bind_eq_ok, rejectIf_eq_ok, mapError_eq_ok, not_not]
  refine ⟨(), hinput, _, hcompile, _, orContext_eq_ok.mpr (hexDecode_hexEncode _), (), hpolicy,
    1000000, rfl, (), by decide, 1000, by decide, (), by decide, (), rfl, (), by simp [hallowed],
    "/usr/bin/uname", by decide, (), by decide, none, rfl, ⟨"/home/op/.serctl/jobs"⟩, by decide,
    rfl⟩

theorem uname_command_sanctioned : prepare unameParse unameHost unameStart = .ok unamePrepared ∧
    ∃ policy uid now, Policy.compilePolicyJson unameParse unameStart.policyJson = .ok policy ∧
      effectiveUid unameHost.procStatus = .ok uid ∧ unixMs unameHost.unixMs = .ok now ∧ uid ≠ 0 ∧
      unameStart.runAsUid = uid ∧
      Sanctioned policy unameStart uid now
        (makeCommand unamePrepared.executable unameStart unamePrepared.cwd) ∧
      DigestsExact policy unameStart :=
  ⟨unameStart_prepared, prepared_command_sanctioned unameParse unameHost unameStart unamePrepared
    unameStart_prepared⟩

/-! ## The digests of valid requests -/

/-- **The digest of a valid request names its inputs**: all that it is started with but the policy
    text, which has a digest of its own, and the receipt token. -/
theorem valid_start_inputs_digested {a b : StartFrame} (ha : a.validate = .ok ())
    (hb : b.validate = .ok ()) :
    (startPreimage a = startPreimage b → SameInputs a b) ∧
    (NoCollision (startPreimage a) (startPreimage b) →
      computeStartInputDigest a = computeStartInputDigest b → SameInputs a b) := by
  have hinjective : startPreimage a = startPreimage b → SameInputs a b :=
    startPreimage_injective (StartFrame.sized_of_validate ha) (StartFrame.sized_of_validate hb)
  refine ⟨hinjective, fun hfree hdigest => hinjective (hfree ?_)⟩
  rw [← Sha256.val_digest, ← Sha256.val_digest]
  exact congrArg Subtype.val hdigest

/-- A valid request for `uname -a`. -/
def unameTyped : StartFrame := { unameRequest with
  policyDigest := .fill 32 3
  inputDigest := .fill 32 5
  policyJson := [0] }

theorem retried_start_inputs_digested : ∃ a b : StartFrame, a ≠ b ∧ a.validate = .ok () ∧
    b.validate = .ok () ∧ SameInputs a b :=
  ⟨unameTyped, { unameTyped with receiptToken := .fill 32 6 }, by decide, by decide, by decide,
    (valid_start_inputs_digested (by decide) (by decide)).1 rfl⟩

end Helper

end Serctl.Remote
