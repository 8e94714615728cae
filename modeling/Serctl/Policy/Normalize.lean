import Serctl.Policy.Schema

/-!
# Normalization and invariant denials

The text rules that no document can relax: identities, program identifiers, environment
keys and paths are checked and brought to one spelling here, both when a policy is compiled
and when an intent is evaluated.
-/

namespace Serctl.Policy

open Lib.Guard Lib List Lib.Text

/-- Text bounded in bytes and free of control characters. -/
def validatePlainText (value : String) (maxBytes : Nat) : Except PolicyError Unit := do
  rejectIf (byteLen value > maxBytes)
    ⟨.policyLimitExceeded, "text value exceeds its byte limit"⟩
  rejectIf (hasControl value = true)
    ⟨.invariantControlCharacter, "control characters are an invariant denial"⟩

/-! ## Identities -/

/-- Spellings of the superuser: `root` in any case, or a number that is zero. -/
def isRootAlias (name : String) : Bool :=
  asciiLower name == "root" || parseNat32 name == some 0

def isAccountChar (c : Char) : Bool := c.isAlphanum || "_.-".toList.contains c

/-- Root is refused, and names are plain. -/
def validateRunAs (runAs : RunAs) : Except PolicyError RunAs :=
  match runAs with
  | .uid 0 => .error ⟨.invariantRootRunAs, "UID 0 is an invariant denial"⟩
  | .uid (_ + 1) => .ok runAs
  | .user name => do
    validatePlainText name maxIdentityBytes
    rejectIf (isRootAlias name = true)
      ⟨.invariantRootRunAs, "root identity is an invariant denial"⟩
    rejectIf (name.isEmpty = true ∨ name.toList.all isAccountChar = false)
      ⟨.schemaInvalid, "run_as user must be a bounded ASCII account name"⟩
    return runAs

/-- An identity that denotes the superuser. -/
def RunAs.IsRoot : RunAs → Prop
  | .uid value => value = 0
  | .user name => isRootAlias name = true

theorem not_isRoot_of_validateRunAs {runAs r : RunAs} (h : validateRunAs runAs = .ok r) :
    ¬runAs.IsRoot := by
  rcases runAs with name | value
  · simp only [validateRunAs, bind_eq_ok, rejectIf_eq_ok] at h
    obtain ⟨_, _, _, hroot, _⟩ := h
    exact hroot
  · cases value with
    | zero => simp [validateRunAs] at h
    | succ n => exact Nat.succ_ne_zero n

/-! ## Programs -/

/-- Shells and the like. -/
def isCommandInterpreter (program : String) : Bool :=
  ["sh", "bash", "dash", "zsh", "ksh", "fish", "csh", "tcsh", "cmd", "powershell", "pwsh",
    "wscript", "cscript", "mshta", "python", "python3", "perl", "ruby", "node",
    "osascript"].contains program

/-- Programs that destroy or raise privileges. -/
def isDangerousProgram (program : String) : Bool :=
  startsWith program "mkfs." ||
    ["rm", "rmdir", "dd", "mkfs", "fdisk", "sfdisk", "cfdisk", "parted", "wipefs", "shred",
      "chmod", "chown", "chgrp", "setfacl", "mount", "umount", "reboot", "shutdown",
      "poweroff", "halt", "init", "systemctl", "sudo", "su", "doas", "pkexec", "reg",
      "regedit", "sc", "net", "netsh", "diskpart", "format", "bcdedit", "cipher", "takeown",
      "icacls"].contains program

/-- The normal form of a program. -/
def normalizeProgramIdentifier (program : String) : Except PolicyError String := do
  validatePlainText program maxProgramBytes
  rejectIf (program.isEmpty = true ∨
      program.toList.all (fun c => c.isAlphanum || "._-".toList.contains c) = false)
    ⟨.schemaInvalid, "program must be an identifier resolved by a fixed helper allowlist"⟩
  let normalized := asciiLower program
  return (stripSuffix normalized ".exe").getD normalized

/-- Programs that no policy allows. -/
def validateProgramInvariant (program : String) : Except PolicyError Unit := do
  rejectIf (isCommandInterpreter program = true)
    ⟨.invariantCommandInterpreter, "command interpreters are an invariant denial"⟩
  rejectIf (isDangerousProgram program = true)
    ⟨.invariantDangerousProgram, "dangerous command family is an invariant denial"⟩

/-! ### The normal form of a program -/

def isProgramChar (c : Char) : Bool := c.isAlphanum || "._-".toList.contains c

theorem isPrintable_of_isProgramChar {s : String} (h : s.toList.all isProgramChar = true) :
    s.toList.all isPrintable = true := by
  refine all_eq_true.mpr fun c hc => ?_
  rcases Bool.or_eq_true _ _ ▸ all_eq_true.mp h c hc with hc | hc
  · exact isPrintable_of_isAlphanum hc
  · exact all_eq_true.mp (by decide : "._-".toList.all isPrintable = true) c
      (contains_iff_mem.mp hc)

theorem isProgramChar_toLower {c : Char} (h : isProgramChar c = true) :
    isProgramChar c.toLower = true ∧ c.toLower.toLower = c.toLower := by
  rcases toLower_cases c with hc | hc
  · rw [hc, hc]
    exact ⟨h, rfl⟩
  · have halnum : c.toLower.isAlphanum = true := by
      delta Char.isAlphanum Char.isAlpha
      rw [hc, Bool.or_true, Bool.true_or]
    exact ⟨by rw [isProgramChar, halnum, Bool.true_or], toLower_of_isLower hc⟩

variable {program r : String}

/-- A program is accepted when it is a bounded, non-empty identifier. -/
theorem normalizeProgramIdentifier_eq_ok :
    normalizeProgramIdentifier program = .ok r ↔
      program ≠ "" ∧ program.toList.all isProgramChar = true ∧
        program.toList.length ≤ maxProgramBytes ∧
        (stripSuffix (asciiLower program) ".exe").getD (asciiLower program) = r := by
  simp only [normalizeProgramIdentifier, validatePlainText, bind_eq_ok, rejectIf_eq_ok, pure_eq_ok,
    String.isEmpty_iff, not_or, Bool.not_eq_false]
  constructor
  · rintro ⟨_, ⟨_, hlen, _⟩, _, ⟨hne, hchars⟩, hr⟩
    rw [byteLen_of_isPrintable (isPrintable_of_isProgramChar hchars)] at hlen
    exact ⟨hne, hchars, Nat.le_of_not_gt hlen, hr⟩
  · rintro ⟨hne, hchars, hlen, hr⟩
    have hprintable := isPrintable_of_isProgramChar hchars
    refine ⟨(), ⟨(), ?_, ?_⟩, (), ⟨hne, hchars⟩, hr⟩
    · rw [byteLen_of_isPrintable hprintable]
      exact Nat.not_lt.mpr hlen
    · simp [hasControl_of_isPrintable hprintable]

/-- One ".exe" is taken off the end of a text. -/
theorem withoutExe_cases (s : String) : (∃ q, s = q ++ ".exe" ∧ (stripSuffix s ".exe").getD s = q) ∨
      (endsWith s ".exe" = false ∧ (stripSuffix s ".exe").getD s = s) := by
  unfold stripSuffix
  split
  case isTrue h =>
    obtain ⟨q, hq⟩ := of_decide_eq_true h
    refine .inl ⟨String.ofList q, String.toList_injective (by simp [← hq]), ?_⟩
    simp [← hq]
  case isFalse h => exact .inr ⟨Bool.eq_false_of_not_eq_true h, rfl⟩

theorem withoutExe_eq_self {s : String} :
    (stripSuffix s ".exe").getD s = s ↔ endsWith s ".exe" = false := by
  rcases withoutExe_cases s with ⟨q, rfl, hq⟩ | ⟨hs, hq⟩
  · have hends : endsWith (q ++ ".exe") ".exe" = true := by simp [endsWith]
    have hlonger : q ≠ q ++ ".exe" := fun h => by simpa using congrArg (·.toList.length) h
    simp [hq, hends, hlonger]
  · simp [hs, hq]

/-- What normalizing gives is in lower case, and normal unless it ends in ".exe" again. -/
theorem normalizeProgramIdentifier_again (h : normalizeProgramIdentifier program = .ok r) :
    normalizeProgramIdentifier r = .ok r ↔ r ≠ "" ∧ endsWith r ".exe" = false := by
  obtain ⟨-, hchars, hlen, hr⟩ := normalizeProgramIdentifier_eq_ok.mp h
  have hlower : r.toList <+: program.toList.map Char.toLower := by
    rw [← String.toList_ofList (l := program.toList.map _), ← asciiLower]
    rcases withoutExe_cases (asciiLower program) with ⟨q, hq, hstrip⟩ | ⟨_, hstrip⟩
    · rw [← hr, hstrip, hq, String.toList_append]
      exact prefix_append ..
    · rw [← hr, hstrip]
  have hchar : ∀ c ∈ r.toList, isProgramChar c = true ∧ c.toLower = c := by
    intro c hc
    obtain ⟨d, hd, rfl⟩ := mem_map.mp (hlower.subset hc)
    exact isProgramChar_toLower (all_eq_true.mp hchars d hd)
  have hfixed : asciiLower r = r := by
    rw [asciiLower, map_congr_left fun c hc => (hchar c hc).2, map_id', String.ofList_toList]
  have hok : r.toList.all isProgramChar = true := all_eq_true.mpr fun c hc => (hchar c hc).1
  have hshort : r.toList.length ≤ maxProgramBytes :=
    (hlower.length_le.trans (length_map _).le).trans hlen
  rw [normalizeProgramIdentifier_eq_ok, hfixed, withoutExe_eq_self]
  exact ⟨fun ⟨hne, _, _, hends⟩ => ⟨hne, hends⟩, fun ⟨hne, hends⟩ => ⟨hne, hok, hshort, hends⟩⟩

/-- **The normal form of a program.** The result of normalizing an accepted program is a non-empty
    identifier that normalizes to itself exactly when the program is not ".exe" and does not end in
    ".exe.exe": the suffix is taken off once. -/
theorem normalized_program_normal_iff (h : normalizeProgramIdentifier program = .ok r) :
    (r ≠ "" ∧ normalizeProgramIdentifier r = .ok r) ↔
      asciiLower program ≠ ".exe" ∧
        endsWith (asciiLower program) ".exe.exe" = false := by
  obtain ⟨hne, -, -, hr⟩ := normalizeProgramIdentifier_eq_ok.mp h
  rw [normalizeProgramIdentifier_again h, and_iff_right_of_imp And.left]
  rcases withoutExe_cases (asciiLower program) with ⟨q, hq, hstrip⟩ | ⟨hends, hstrip⟩
  · obtain rfl : q = r := hstrip.symm.trans hr
    have htwice : endsWith (q ++ ".exe") ".exe.exe" = endsWith q ".exe" := by
      have hiff : ".exe".toList ++ ".exe".toList <:+ q.toList ++ ".exe".toList ↔
          ".exe".toList <:+ q.toList :=
        (suffix_append_inj_of_length_eq rfl).trans (and_iff_left rfl)
      simp only [endsWith, String.toList_append, decide_eq_decide]
      exact hiff
    have hbare : q ++ ".exe" ≠ ".exe" ↔ q ≠ "" := by simp
    rw [hq, htwice, hbare]
  · obtain rfl : asciiLower program = r := hstrip.symm.trans hr
    have hsome : asciiLower program ≠ "" := by simpa [asciiLower] using hne
    have htwice : endsWith (asciiLower program) ".exe.exe" = false :=
      decide_eq_false fun hsuf => of_decide_eq_false hends
        (IsSuffix.trans (by decide : ".exe".toList <:+ _) hsuf)
    have hbare : asciiLower program ≠ ".exe" := fun heq =>
      Bool.noConfusion (hends.symm.trans (congrArg (endsWith · ".exe") heq))
    simp only [hends, htwice, ne_eq, hsome, hbare, not_false_eq_true, and_self]

theorem uname_normal : normalizeProgramIdentifier "UNAME.exe" = .ok "uname" ∧
    normalizeProgramIdentifier "uname" = .ok "uname" := by
  have h : normalizeProgramIdentifier "UNAME.exe" = .ok "uname" := by decide
  exact ⟨h, ((normalized_program_normal_iff h).mpr (by decide)).2⟩

/-- Behind a second ".exe" a dangerous program passes the check on the normalized program, and
    ".exe" alone is accepted as the empty program. -/
theorem suffix_stripped_once :
    normalizeProgramIdentifier "rm.exe.exe" = .ok "rm.exe" ∧
      validateProgramInvariant "rm.exe" = .ok () ∧
      normalizeProgramIdentifier "rm.exe" = .ok "rm" ∧
      validateProgramInvariant "rm" =
        .error ⟨.invariantDangerousProgram, "dangerous command family is an invariant denial"⟩ ∧
      normalizeProgramIdentifier ".exe" = .ok "" := by
  decide

/-! ## Environment keys and arguments -/

/-- Variables that change what is run. -/
def isDangerousEnvKey (key : String) : Bool :=
  ["PATH", "IFS", "ENV", "BASH_ENV", "SHELLOPTS", "PYTHONPATH"].contains key ||
    startsWith key "LD_" || startsWith key "DYLD_"

/-- The normal form of a variable. -/
def normalizeEnvKey (key : String) : Except PolicyError String := do
  validatePlainText key maxEnvNameBytes
  rejectIf (key.isEmpty = true ∨
      key.toList.all (fun c => c.isUpper || c.isDigit || c == '_') = false)
    ⟨.schemaInvalid, "environment keys must use uppercase ASCII identifiers"⟩
  rejectIf (isDangerousEnvKey key = true)
    ⟨.invariantEnvironmentInjection, "environment key is an invariant denial"⟩
  return key

/-- Environment keys have one spelling: normalizing one gives the key itself. -/
theorem normalizeEnvKey_eq_ok {key k : String} (h : normalizeEnvKey key = .ok k) : k = key := by
  simp only [normalizeEnvKey, bind_eq_ok, pure_eq_ok] at h
  obtain ⟨_, _, _, _, _, _, hk⟩ := h
  exact hk.symm

/-- Flags that make a program run commands. -/
def isShellCommandFlag (argument : String) : Bool :=
  ["-c", "/c", "--command", "-command", "-encodedcommand"].contains
    (asciiLower argument)

/-! ## Paths -/

/-- Characters that some decoder reads as a path separator. -/
def isAmbiguousPathChar (c : Char) : Bool :=
  ['%', '\u2044', '\u2215', '\uff0f', '\uff3c'].contains c

/-- This directory, or the one above. -/
def isDotComponent (component : String) : Bool := component == "." || component == ".."

/-- The normal form of a POSIX path. -/
def normalizePosixPath (value : String) : Except PolicyError String := do
  rejectIf (startsWith value "/" = false)
    ⟨.invariantPathNotAbsolute, "POSIX policy paths must be absolute"⟩
  rejectIf (containsChar value '\\' = true)
    ⟨.invariantAmbiguousPath, "backslashes are denied in POSIX policy paths"⟩
  let components := (split value '/').filter (fun component => !component.isEmpty)
  rejectIf (components.any isDotComponent = true)
    ⟨.invariantPathTraversal, "dot path components are denied"⟩
  return "/" ++ join "/" components

/-- Names that stand for devices. -/
def isWindowsReservedComponent (component : String) : Bool :=
  let stem := asciiUpper (((split component '.').head?).getD component)
  ["CON", "PRN", "AUX", "NUL"].contains stem ||
    match (stripPrefix stem "COM").or (stripPrefix stem "LPT") with
    | none => false
    | some suffix => match suffix.toList with
      | [c] => '1' ≤ c && c ≤ '9'
      | _ => false

/-- One component of a drive path; dot components are refused before ambiguous ones. -/
def validateWindowsComponent (component : String) : Except PolicyError Unit := do
  rejectIf (isDotComponent component = true)
    ⟨.invariantPathTraversal, "dot path components are denied"⟩
  rejectIf ((containsChar component ':' || endsWith component "." ||
      endsWith component " " || isWindowsReservedComponent component) = true)
    ⟨.invariantAmbiguousPath, "ambiguous Windows path component is denied"⟩

/-- The normal form of a Windows path. -/
def normalizeWindowsPath (value : String) : Except PolicyError String := do
  let canonical := value.toList.map (fun c => if c = '\\' then '/' else c)
  rejectIf (['/', '/'].isPrefixOf canonical = true ∨
      byteLen (String.ofList canonical) < 3)
    ⟨.invariantPathNotAbsolute,
      "Windows policy paths must be absolute drive paths, not UNC/device paths"⟩
  match canonical with
  | drive :: ':' :: '/' :: rest =>
    rejectIf (drive.isAlpha = false)
      ⟨.invariantPathNotAbsolute, "Windows policy paths must use an absolute drive prefix"⟩
    let components :=
      (split (String.ofList rest) '/').filter (fun component => !component.isEmpty)
    let _ ← collect validateWindowsComponent components
    return String.ofList [drive.toUpper] ++ ":/" ++ join "/" components
  | _ =>
    .error ⟨.invariantPathNotAbsolute,
      "Windows policy paths must use an absolute drive prefix"⟩

/-- The normal form of a path. -/
def normalizePath (flavor : PathFlavor) (value : String) : Except PolicyError String := do
  validatePlainText value maxPathBytes
  rejectIf (value.toList.any isAmbiguousPathChar = true)
    ⟨.invariantAmbiguousPath, "encoded or ambiguous path separators are denied"⟩
  match flavor with
  | .posix => normalizePosixPath value
  | .windows => normalizeWindowsPath value

example : normalizePath .posix "/srv//data/" = .ok "/srv/data" := by decide

example : normalizePath .windows "c:\\logs\\x" = .ok "C:/logs/x" := by decide

/-- Component-wise containment of normalized paths; drive paths ignore ASCII case. -/
def pathPrefixMatches (pre path : NormalizedPath) : Bool :=
  if pre.flavor ≠ path.flavor then false
  else
    let fold := match pre.flavor with
      | .posix => id
      | .windows => asciiLower
    let preValue := fold pre.value
    let pathValue := fold path.value
    if preValue == "/" || endsWith preValue ":/" then
      startsWith pathValue preValue
    else
      pathValue == preValue ||
        match stripPrefix pathValue preValue with
        | none => false
        | some suffix => startsWith suffix "/"

end Serctl.Policy
