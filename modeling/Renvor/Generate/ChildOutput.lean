import Renvor.Foundation.Replacement
import Renvor.Generate.Seal

/-! # A child's output, fit to report

The credentials of URLs and those the seal removed are replaced, then control characters are
escaped. The text is read cell by cell, so that the same functions run on characters and on
characters that remember whether they were inserted (`Renvor.ChildOutput.traced`).
-/

namespace Renvor.ChildOutput

open Renvor.Seal (schemeMark)

/-- The characters that end the authority of a URL in a text. -/
def endsAuthority (character : Char) : Bool :=
  character = '/' || isWhitespace character || character = '"' || character = '\''

/-- What stands for a credential. -/
def removed : List Char := "<credential removed>".toList

section
variable {α : Type} (read : α → Char) (insert : Char → α)

/-- The text up to the first `://`, and after it. -/
def splitAtScheme : List α → Option (List α × List α)
  | [] => none
  | cell :: rest =>
      if schemeMark.isPrefixOf ((cell :: rest).map read) then
        some ((cell :: rest).take schemeMark.length, (cell :: rest).drop schemeMark.length)
      else (splitAtScheme rest).map fun (head, tail) => (cell :: head, tail)

theorem splitAtScheme_length {text head tail : List α}
    (split : splitAtScheme read text = some (head, tail)) : tail.length < text.length := by
  induction text generalizing head with
  | nil => cases split
  | cons cell rest ih =>
      unfold splitAtScheme at split
      split at split
      next =>
        cases split
        rw [List.length_drop]
        exact Nat.sub_lt (Nat.succ_pos _) (by decide)
      next =>
        obtain ⟨⟨front, back⟩, found, ends⟩ := Option.map_eq_some_iff.mp split
        cases ends
        exact Nat.lt_succ_of_lt (ih found)

/-- An authority with its userinfo replaced. -/
def redactAuthority (authority : List α) : List α :=
  match Foundation.Marks.cutLast (fun cell => read cell = '@') authority with
  | some (_, host) => (removed ++ ['@']).map insert ++ host
  | none => authority

/-- A text with the userinfo of its URLs replaced. -/
def redactUrls (text : List α) : List α :=
  match _found : splitAtScheme read text with
  | none => text
  | some (head, tail) =>
      head ++ redactAuthority read insert (tail.takeWhile fun cell => !endsAuthority (read cell)) ++
        redactUrls (tail.dropWhile fun cell => !endsAuthority (read cell))
termination_by text.length
decreasing_by
  have shorter := splitAtScheme_length read _found
  have rest := (List.dropWhile_suffix (l := tail) fun cell => !endsAuthority (read cell)).length_le
  omega

/-- A text with some characters replaced wherever they stand. -/
def conceal (secret : List Char) (out : List α) : List α :=
  Foundation.Replacement.replace read secret (removed.map insert) out

/-- A text with a credential replaced, and its password. -/
def concealCredential (out : List α) (credential : List Char) : List α :=
  if credential = [] then out
  else
    let out := conceal read insert credential out
    match splitOnce [':'] credential with
    | some (_, password) => if password = [] then out else conceal read insert password out
    | none => out

end

/-- A control character as it is written. -/
def escapeDebug (character : Char) : List Char :=
  if character = '\x00' then ['\\', '0']
  else if character = '\t' then ['\\', 't']
  else if character = '\r' then ['\\', 'r']
  else if character = '\n' then ['\\', 'n']
  else ['\\', 'u', '{'] ++ Nat.toDigits 16 character.toNat ++ ['}']

def needsEscaping (character : Char) : Bool :=
  isControl character && character ≠ '\n' && character ≠ '\t'

def shown (character : Char) : List Char :=
  if needsEscaping character then escapeDebug character else [character]

/-- A text as a terminal may show it. -/
def forTerminal (text : List Char) : List Char := text.flatMap shown

/-- A child's output, fit to report. -/
def redactedOutput (text : List Char) (credentials : List (List Char)) : List Char :=
  forTerminal (credentials.foldl (concealCredential id id) (redactUrls id id text))

/-! ## What is to be hidden -/

/-- A character and whether it was inserted. -/
structure Cell where
  character : Char
  inserted : Bool
  deriving DecidableEq

/-- A character of a marker. -/
def Cell.marker (character : Char) : Cell := ⟨character, true⟩

/-- A character of the child's own. -/
def Cell.own (character : Char) : Cell := ⟨character, false⟩

/-- A cell as a terminal may show it. -/
def Cell.shown (cell : Cell) : List Cell :=
  (ChildOutput.shown cell.character).map fun character => ⟨character, cell.inserted⟩

/-- The reported output, each character with whether it belongs to a marker. -/
def traced (text : List Char) (credentials : List (List Char)) : List Cell :=
  (credentials.foldl (concealCredential Cell.character Cell.marker)
    (redactUrls Cell.character Cell.marker (text.map Cell.own))).flatMap Cell.shown

/-- A text stands somewhere in the output outside the inserted markers. -/
def Outside (cells : List Cell) (secret : List Char) : Prop :=
  ∃ run, run <:+: cells ∧ (∀ cell ∈ run, cell.inserted = false) ∧
    run.map Cell.character = secret

/-- The credentials and their passwords. -/
def secrets (credentials : List (List Char)) : List (List Char) :=
  (credentials.flatMap fun credential =>
    credential :: ((splitOnce [':'] credential).map Prod.snd).toList).filter (· ≠ [])

/-- The characters of a userinfo: unreserved ones, subordinate delimiters, the colon, and the
percent sign. -/
def isUserinfo (character : Char) : Bool :=
  character.isAlphanum || "-._~!$&'()*+,;=:%".toList.contains character

/-- What stands before the first `://`, and after each of them. -/
def segments : List Char → List Char × List (List Char)
  | ':' :: '/' :: '/' :: rest => ([], (segments rest).1 :: (segments rest).2)
  | character :: rest => (character :: (segments rest).1, (segments rest).2)
  | [] => ([], [])

/-- Two texts after a `://` that are the same but for the content of a userinfo. -/
def SameUserinfo (left right : List Char) : Prop :=
  left = right ∨ ∃ user user' rest, left = user ++ '@' :: rest ∧ right = user' ++ '@' :: rest ∧
    user ≠ [] ∧ user' ≠ [] ∧ (∀ character ∈ user, isUserinfo character = true) ∧
      ∀ character ∈ user', isUserinfo character = true

/-- **Texts that differ only in the content of the userinfo of URLs in them.** -/
def SameUrls (left right : List Char) : Prop :=
  (segments left).1 = (segments right).1 ∧
    List.Forall₂ SameUserinfo (segments left).2 (segments right).2

/-- The characters of a text before the first at sign. -/
def userinfo (segment : List Char) : List Char := segment.takeWhile (· ≠ '@')

/-- Segments that differ in what the scanner takes for a userinfo only. A `://` that directly
follows the authority of another is passed over. -/
def Covered : Bool → List (List Char) → List (List Char) → Prop
  | false, left :: lefts, right :: rights => left = right ∧ Covered true lefts rights
  | true, left :: lefts, right :: rights =>
      (left = right ∨ '\'' ∉ userinfo left ∧ '\'' ∉ userinfo right) ∧
        Covered (left.any endsAuthority) lefts rights
  | _, _, _ => True

/-- **A secret that an escape spells**: no secret stands in a text, and one stands in it
once its control characters are escaped. -/
def Spelt (secrets : List (List Char)) : Prop :=
  ∃ text : List Char, (∀ secret ∈ secrets, ¬secret <:+: text) ∧
    ∃ secret ∈ secrets, secret <:+: forTerminal text

/-- A secret that has something in common with the escape of a control character: it lies in
the escape, begins with the end of it, ends with its beginning, or holds all of it. -/
def MeetsEscape (secret : List Char) : Prop :=
  ∃ character, needsEscaping character = true ∧
    (secret <:+: escapeDebug character ∨
      (∃ part, part ≠ [] ∧ part <:+ escapeDebug character ∧ part <+: secret) ∨
      (∃ part, part ≠ [] ∧ part <+: escapeDebug character ∧ part <:+ secret) ∨
      escapeDebug character <:+: secret)

end Renvor.ChildOutput
