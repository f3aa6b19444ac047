import Renvor.Foundation.Marks
import Renvor.Kernel.Text

/-! # The sealed environment of a verification child

The variables that pass from the parent's environment to a child, a proxy's credential
taken out of its value. Beside it stands what a proxy value is: a URL, which may be written
without its scheme (`Renvor.Seal.parts`).
-/

namespace Renvor.Seal

/-- A text of the operating system, which need not be text. -/
inductive OsString
  | text (content : String)
  | other (units : List Nat)
  deriving DecidableEq

def OsString.toStr : OsString → Option String
  | .text content => some content
  | .other _ => none

abbrev Variable := OsString × OsString

/-- The environment variables verification passes to the staged project's checks. -/
def passedThrough : List String :=
  ["PATH", "HOME", "USER", "LOGNAME", "TMPDIR", "TEMP", "TMP", "LANG", "LC_ALL", "LC_CTYPE",
    "TERM", "CARGO_HOME", "RUSTUP_HOME", "RUSTUP_TOOLCHAIN", "RUSTC", "RUSTC_WRAPPER",
    "RUSTC_WORKSPACE_WRAPPER", "RUSTFLAGS", "RUSTDOCFLAGS", "CARGO_BUILD_JOBS",
    "CARGO_INCREMENTAL", "CARGO_NET_OFFLINE", "CARGO_NET_GIT_FETCH_WITH_CLI", "CARGO_NET_RETRY",
    "CARGO_HTTP_CAINFO", "CARGO_HTTP_PROXY", "CARGO_HTTP_TIMEOUT",
    "CARGO_REGISTRIES_CRATES_IO_PROTOCOL", "CARGO_TERM_COLOR", "SSL_CERT_FILE", "SSL_CERT_DIR",
    "HTTP_PROXY", "HTTPS_PROXY", "NO_PROXY", "http_proxy", "https_proxy", "no_proxy",
    "SystemRoot", "SystemDrive", "USERPROFILE", "APPDATA", "LOCALAPPDATA", "ProgramData",
    "PATHEXT", "COMSPEC", "windir"]

/-- The proxy variables the seal passes through. -/
def proxyVariables : List String :=
  ["CARGO_HTTP_PROXY", "HTTP_PROXY", "HTTPS_PROXY", "http_proxy", "https_proxy"]

/-- The variable the seal forces, and its value. -/
def forcedNoInstall : String × String := ("RUSTUP_AUTO_INSTALL", "0")

/-- The two install-server variables no child ever receives from the seal. -/
def neverPassed : List String := ["RUSTUP_DIST_SERVER", "RUSTUP_UPDATE_ROOT"]

section
variable (windows : Bool)

/-- Whether two environment-variable names are the same name. -/
def sameVariableName (left right : String) : Bool :=
  if windows then eqIgnoreAsciiCase left right else left = right

def isPassedThrough (name : String) : Bool :=
  passedThrough.any fun allowed => sameVariableName windows allowed name

def isProxy (name : String) : Bool :=
  proxyVariables.any fun proxy => sameVariableName windows proxy name

def isNeverPassed (name : String) : Bool :=
  neverPassed.any fun never => sameVariableName windows name never

end

/-- The variables a child receives, and the credentials taken out of them. -/
structure Sealed where
  entries : List Variable
  credentials : List (List Char)

/-- Everything a child receives. -/
def Sealed.environment (windows : Bool) (kept : Sealed) : List Variable :=
  kept.entries.filter (fun entry =>
    match entry.1.toStr with
    | none => true
    | some text =>
        !sameVariableName windows text forcedNoInstall.1 && !isNeverPassed windows text) ++
    [(.text forcedNoInstall.1, .text forcedNoInstall.2)]

def schemeMark : List Char := [':', '/', '/']

/-- What stands before a value's authority, and what follows. -/
def splitScheme (value : List Char) : List Char × List Char :=
  match splitOnce schemeMark value with
  | some (scheme, rest) => (scheme ++ schemeMark, rest)
  | none => ([], value)

/-- A value without its credential, and the credential. -/
def withoutProxyCredential (value : List Char) : List Char × Option (List Char) :=
  let (scheme, rest) := splitScheme value
  let authority := rest.takeWhile (· ≠ '/')
  match Foundation.Marks.cutLast (· = '@') authority with
  | some (credential, host) => (scheme ++ host ++ rest.dropWhile (· ≠ '/'), some credential)
  | none => (value, none)

/-- What the seal keeps of one variable, and the credential it takes out. -/
def sealVariable (windows : Bool) : Variable → Option (Variable × Option (List Char))
  | (name, value) =>
      match name.toStr with
      | none => none
      | some textName =>
          if isPassedThrough windows textName then
            if isProxy windows textName then
              match value.toStr with
              | none => none
              | some text =>
                  let (stripped, credential) := withoutProxyCredential text.toList
                  some ((name, .text (String.ofList stripped)), credential)
            else some ((name, value), none)
          else none

/-- Seals a parent's environment. -/
def sealParent (windows : Bool) (parent : List Variable) : Sealed :=
  let kept := parent.filterMap (sealVariable windows)
  ⟨kept.map Prod.fst, kept.filterMap Prod.snd⟩

/-! ## What a proxy value is -/

/-- The characters that end an authority. -/
def isDelimiter (character : Char) : Bool := "/?#".toList.contains character

/-- A value as its scheme with the slashes after it, its authority, and its path, query and
fragment. -/
structure Parts where
  lead : List Char
  authority : List Char
  tail : List Char

/-- The scheme with the slashes after it, which a value may leave out. -/
def lead (value : List Char) : List Char :=
  let scheme := value.takeWhile fun character => !(character = ':' || isDelimiter character)
  if scheme ≠ [] ∧ schemeMark <+: value.drop scheme.length then scheme ++ schemeMark
  else if ['/', '/'] <+: value then ['/', '/']
  else []

def parts (value : List Char) : Parts :=
  let rest := value.drop (lead value).length
  ⟨lead value, rest.takeWhile fun character => !isDelimiter character,
    rest.dropWhile fun character => !isDelimiter character⟩

/-- A value without its userinfo, all else unchanged. -/
def withoutUserinfo (value : List Char) : List Char :=
  (parts value).lead ++ (parts value).authority.rtakeWhile (· ≠ '@') ++ (parts value).tail

/-- What a child is to receive of one variable. -/
def expectedVariable (windows : Bool) : Variable → Option Variable
  | (.text name, value) =>
      if isPassedThrough windows name then
        if isProxy windows name then
          value.toStr.map fun text =>
            (.text name, .text (String.ofList (withoutUserinfo text.toList)))
        else some (.text name, value)
      else none
  | (.other _, _) => none

/-- What a child is to receive. -/
def expected (windows : Bool) (parent : List Variable) : List Variable :=
  parent.filterMap (expectedVariable windows) ++
    [(.text forcedNoInstall.1, .text forcedNoInstall.2)]

/-- What follows the first `://` up to a slash. -/
def followed (value : List Char) : List Char :=
  match splitOnce schemeMark value with
  | some (_, rest) => rest.takeWhile (· ≠ '/')
  | none => []

/-- **A proxy value whose userinfo is taken out exactly.** Where the first `://` is the one
after the scheme, no at sign stands in the query or fragment before a slash; elsewhere no at
sign stands where an authority would. -/
def Plain (value : List Char) : Prop :=
  ((splitScheme value).1 = (parts value).lead → '@' ∉ (parts value).tail.takeWhile (· ≠ '/')) ∧
    ((splitScheme value).1 ≠ (parts value).lead →
      '@' ∉ (parts value).authority ∧ '@' ∉ followed value)

instance (value : List Char) : Decidable (Plain value) := inferInstanceAs (Decidable (_ ∧ _))

/-- An environment whose proxy values are all taken apart exactly. -/
def PlainProxies (windows : Bool) (parent : List Variable) : Prop :=
  ∀ name value, (OsString.text name, OsString.text value) ∈ parent →
    isPassedThrough windows name = true → isProxy windows name = true → Plain value.toList

end Renvor.Seal
