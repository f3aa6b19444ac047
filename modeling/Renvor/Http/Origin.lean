import Renvor.Kernel.Text

/-! # Where a request comes from

An origin is a scheme, a host and a port, read from an `Origin` header by the
rules that read a `Host`.
-/

namespace Renvor

/-- A port from decimal digits: not zero, and no more than a socket can carry. -/
def parsePort (raw : List Char) : Option (Fin 65536) :=
  if raw.isEmpty || !raw.all isAsciiDigit then none
  else
    let value := raw.foldl (fun value digit => 10 * value + (digit.toNat - '0'.toNat)) 0
    if bound : value < 65536 then if value = 0 then none else some ⟨value, bound⟩
    else none

/-- A host and the port written after it. -/
def splitPort : List Char → Option (List Char × Option (Fin 65536))
  -- an address in brackets keeps them
  | '[' :: rest => do
      let (literal, rest) ← splitOnce [']'] rest
      match rest with
      | [] => return ('[' :: literal ++ [']'], none)
      | ':' :: port => return ('[' :: literal ++ [']'], some (← parsePort port))
      | _ => none
  | text => match splitOnce [':'] text with
      | none => some (text, none)
      | some (host, port) => if port.contains ':' then none else do
          return (host, some (← parsePort port))

/-- Lower case, and no dots at the end. -/
def foldHost (host : List Char) : List Char :=
  ((host.map Char.toLower).reverse.dropWhile (· = '.')).reverse

/-- Reads an authority, or refuses all of it. -/
def normaliseHost (raw : String) : Option (String × Option (Fin 65536)) :=
  let trimmed := (trim raw).toList
  if trimmed.isEmpty || trimmed.any isControl || !trimmed.all isAscii then none
  else do
    let (host, port) ← splitPort trimmed
    if host.isEmpty then none
    else if (foldHost host).isEmpty then none
    else return (String.ofList (foldHost host), port)

inductive Scheme
  | http | https
  deriving DecidableEq

namespace Scheme

def parse (value : String) : Option Scheme :=
  if eqIgnoreAsciiCase value "http" then some http
  else if eqIgnoreAsciiCase value "https" then some https
  else none

def defaultPort : Scheme → Fin 65536
  | http => 80
  | https => 443

end Scheme

/-- The most bytes of an `Origin` that are kept. -/
def maxOriginBytes : Nat := 1024

/-- A scheme, a host and a port, all resolved. -/
structure EffectiveOrigin where
  scheme : Scheme
  host : String
  port : Fin 65536
  deriving DecidableEq

/-- Reads a serialised origin, or refuses all of it. -/
def EffectiveOrigin.parse (origin : String) : Option EffectiveOrigin :=
  if origin.isEmpty || maxOriginBytes < origin.utf8ByteSize then none
  else if origin.toList.any (fun character =>
      !isAscii character || isControl character || character = ' ') then none
  else do
    let (scheme, authority) ← splitOnce "://".toList origin.toList
    let scheme ← Scheme.parse (String.ofList scheme)
    if authority.isEmpty || authority.any "@/\\?#".toList.contains then none
    else
      let (host, port) ← normaliseHost (String.ofList authority)
      return { scheme, host, port := port.getD scheme.defaultPort }

inductive SecFetchSite
  | sameOrigin | sameSite | crossSite | none | unrecognised
  deriving DecidableEq

def SecFetchSite.parse (value : String) : SecFetchSite :=
  let value := trim value
  if eqIgnoreAsciiCase value "same-origin" then sameOrigin
  else if eqIgnoreAsciiCase value "same-site" then sameSite
  else if eqIgnoreAsciiCase value "cross-site" then crossSite
  else if eqIgnoreAsciiCase value "none" then none
  else unrecognised

/-- What the user agent said of where a request came from. -/
structure FetchMetadata where
  origin : Option String
  effectiveOrigin : Option EffectiveOrigin
  secFetchSite : Option SecFetchSite

/-- An `Origin` as it is kept. One that is blank, too long or holds a control
character is as good as absent. -/
def FetchMetadata.acceptable (value : String) : Option String :=
  let value := trim value
  if !value.isEmpty && value.utf8ByteSize ≤ maxOriginBytes &&
      !value.toList.any (fun character => character.toNat < 0x20 || character.toNat = 0x7F)
  then some value
  else Option.none

def FetchMetadata.new (origin secFetchSite : Option String) : FetchMetadata :=
  let origin := origin.bind acceptable
  { origin
    effectiveOrigin := origin.bind EffectiveOrigin.parse
    secFetchSite := secFetchSite.map SecFetchSite.parse }

/-- Headers under their lower-case names, without a value where it is not text. -/
abbrev HeaderMap := List (String × Option String)

namespace HeaderMap

variable (headers : HeaderMap) (name : String)

/-- The first header of the name. -/
def get : Option (Option String) := (headers.find? fun header => header.1 = name).map Prod.snd

/-- Its text. -/
def text : Option String := (headers.get name).join

end HeaderMap

/-- The two credential headers, empty where absent. -/
structure PresentedCredentials where
  cookie : String
  authorization : String

end Renvor
