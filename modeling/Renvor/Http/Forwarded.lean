import Renvor.Http.Origin
import Renvor.Kernel.Address

/-! # Forwarding headers

A proxy says whom it speaks for in `Forwarded` or in `X-Forwarded-For`. The last
entry is the one it added itself.
-/

namespace Renvor

/-- Begins the first part of a text with one more character. -/
def prepend (character : Char) : List (List Char) → List (List Char)
  | [] => [[character]]
  | part :: parts => (character :: part) :: parts

/-- Splits a text, leaving alone what stands between quotes. -/
def splitOutsideQuotes (delimiter : Char) (quoted : Bool) : List Char → List (List Char)
  | [] => [[]]
  | character :: rest =>
      if character = '"' then prepend character (splitOutsideQuotes delimiter (!quoted) rest)
      else if character = delimiter && !quoted then [] :: splitOutsideQuotes delimiter quoted rest
      else prepend character (splitOutsideQuotes delimiter quoted rest)

/-- The last element of a value, which holds no control character and closes its
quotes. -/
def lastElement (value : List Char) : Option (List Char) :=
  if value.isEmpty || value.any isControl then none
  else if value.count '"' % 2 ≠ 0 then none
  else (splitOutsideQuotes ',' false value).getLast?

/-- Refuses a zone identifier, and reads the rest. -/
def rejectZone (raw : List Char) : Option IpAddr :=
  if raw.contains '%' then none else IpAddr.parse raw

/-- Reads a node: an address, in brackets or not, and a port after it. -/
def parseAddress (raw : List Char) : Option IpAddr :=
  match strip isWhitespace raw with
  | [] => none
  | '[' :: rest => do
      let (literal, after) ← splitOnce [']'] rest
      if !after.isEmpty && after.head? ≠ some ':' then none else rejectZone literal
  | raw => match splitOnce [':'] raw with
      | none => rejectZone raw
      | some (host, port) => if port.contains ':' then none else rejectZone host

/-- Reads the one parameter of a name, and refuses what is no parameter. -/
def readParameter {Value : Type} (name : String) (read : List Char → Option Value) :
    Option Value → List (List Char) → Option (Option Value)
  | found, [] => some found
  | found, parameter :: rest => do
      let (key, raw) ← splitOnce ['='] parameter
      if !eqIgnoreAsciiCase (String.ofList (strip isWhitespace key)) name then
        readParameter name read found rest
      else if found.isSome then none
      else do
        let value ← read (strip isWhitespace raw)
        readParameter name read (some value) rest

/-- A value without the quotes around it. -/
def unquote (raw : List Char) : List Char := strip (· = '"') raw

/-- An identifier that carries no address: an obfuscated or unknown one. -/
def unaddressed (raw : List Char) : Bool :=
  raw.isEmpty || raw.head? = some '_' || eqIgnoreAsciiCase (String.ofList raw) "unknown"

def fromForwarded (value : String) : Option IpAddr := do
  let element ← lastElement value.toList
  let found ← readParameter "for" (fun raw => some (unquote raw)) none
    (splitOutsideQuotes ';' false element)
  let raw ← found
  if unaddressed raw then none else parseAddress raw

def protoFromForwarded (value : String) : Option Scheme := do
  let element ← lastElement value.toList
  let found ← readParameter "proto" (fun raw => Scheme.parse (String.ofList (unquote raw))) none
    (splitOutsideQuotes ';' false element)
  found

/-- What follows the last comma. -/
def lastEntry (value : List Char) : List Char := (value.reverse.takeWhile (· ≠ ',')).reverse

def fromXForwardedFor (value : String) : Option IpAddr :=
  if value.isEmpty || value.toList.any isControl then none
  else parseAddress (strip isWhitespace (lastEntry value.toList))

def protoFromXForwardedProto (value : String) : Option Scheme :=
  if value.isEmpty || value.toList.any isControl then none
  else Scheme.parse (String.ofList (strip isWhitespace (lastEntry value.toList)))

/-- The only header of a name. -/
def singleValue : List String → Option String
  | [only] => some only
  | _ => none

/-! ## What a value says -/

/-- A port after an address: none, or a number of one to five digits. -/
inductive Port : List Char → Prop
  | none : Port []
  | some {digits : List Char} (filled : digits ≠ []) (short : digits.length ≤ 5)
      (numeric : ∀ digit ∈ digits, isAsciiDigit digit = true) : Port (':' :: digits)

/-- The node of an address: an IPv6 one in brackets, and a port after it. -/
inductive IpNode : List Char → IpAddr → Prop
  | v4 {text port : List Char} {octets : List.Vector Byte 4}
      (parses : IpAddr.parse text = some (.v4 octets)) (numbered : Port port) :
      IpNode (text ++ port) (.v4 octets)
  | v6 {text port : List Char} {octets : List.Vector Byte 16}
      (parses : IpAddr.parse text = some (.v6 octets)) (numbered : Port port) :
      IpNode ('[' :: text ++ ']' :: port) (.v6 octets)

/-- The value of a node: one with an IPv6 address is quoted. -/
inductive NodeValue : List Char → IpAddr → Prop
  | plain {text : List Char} {octets : List.Vector Byte 4} (node : IpNode text (.v4 octets)) :
      NodeValue text (.v4 octets)
  | quoted {text : List Char} {address : IpAddr} (node : IpNode text address) :
      NodeValue ('"' :: text ++ ['"']) address

/-- A parameter is the name's, with a value. -/
def Names (name : String) (parameter raw : List Char) : Prop :=
  ∃ key value, splitOnce ['='] parameter = some (key, value) ∧
    eqIgnoreAsciiCase (String.ofList (strip isWhitespace key)) name = true ∧
      raw = strip isWhitespace value

/-- The last element of a value has one parameter of the name. -/
def Carries (name : String) (value raw : List Char) : Prop :=
  ∃ element front parameter back, (splitOutsideQuotes ',' false value).getLast? = some element ∧
    splitOutsideQuotes ';' false element = front ++ parameter :: back ∧ Names name parameter raw ∧
      ∀ other ∈ front ++ back, ∀ another, ¬ Names name other another

/-- The last element of a header says that the proxy speaks for an address. -/
def Forwards (value : String) (address : IpAddr) : Prop :=
  ∃ raw, Carries "for" value.toList raw ∧ NodeValue raw address

/-! ## What is read -/

/-- The raw value of the parameter an address is read from. -/
def forParameter (value : List Char) : Option (List Char) := do
  let element ← lastElement value
  let found ← readParameter "for" some none (splitOutsideQuotes ';' false element)
  let raw ← found
  if unaddressed (unquote raw) then none else return raw

/-- What a value has about the text that is read as an address, and a node has not. -/
inductive Stray (raw : List Char) : Prop
  -- other quotes than one pair
  | quotes (some : raw ≠ unquote raw) (pair : raw ≠ '"' :: unquote raw ++ ['"'])
  | blanks (inside : strip isWhitespace (unquote raw) ≠ unquote raw)
  -- brackets without quotes
  | bare (bracket : (unquote raw).head? = some '[') (unquoted : raw = unquote raw)
  | brackets {rest literal after : List Char} {octets : List.Vector Byte 4}
      (bracket : unquote raw = '[' :: rest) (split : splitOnce [']'] rest = some (literal, after))
      (parses : IpAddr.parse literal = some (.v4 octets))
  | afterBrackets {rest literal after : List Char} (bracket : unquote raw = '[' :: rest)
      (split : splitOnce [']'] rest = some (literal, after)) (unnumbered : ¬ Port after)
  | afterHost {host port : List Char} (open' : (unquote raw).head? ≠ some '[')
      (split : splitOnce [':'] (unquote raw) = some (host, port)) (unnumbered : ¬ Port (':' :: port))

section Parameters

variable {Value Other : Type} {name : String} {raw : List Char} {parameters : List (List Char)}

theorem readParameter_map (read : List Char → Option Value) (change : Value → Other)
    (found : Option Value) : readParameter name (fun raw => (read raw).map change)
      (found.map change) parameters = (readParameter name read found parameters).map
        (Option.map change) := by
  induction parameters generalizing found with
  | nil => rfl
  | cons parameter rest ih =>
      unfold readParameter
      cases splitOnce ['='] parameter with
      | none => rfl
      | some parts =>
          obtain ⟨key, raw⟩ := parts
          simp only [Option.bind_eq_bind, Option.bind_some, Option.isSome_map]
          split
          · exact ih found
          · split
            · rfl
            · cases read (strip isWhitespace raw) with
              | none => rfl
              | some value => exact ih (some value)

/-- A parameter that is read has the name, and no other has. -/
theorem readParameter_some {value : List Char} (found : Option (List Char))
    (reads : readParameter name some found parameters = some (some value)) :
    found = some value ∧ (∀ other ∈ parameters, ∀ another, ¬ Names name other another) ∨
      found = none ∧ ∃ front parameter back, parameters = front ++ parameter :: back ∧
        Names name parameter value ∧ ∀ other ∈ front ++ back, ∀ another, ¬ Names name other another := by
  induction parameters generalizing found with
  | nil =>
      cases reads
      exact .inl ⟨rfl, by simp⟩
  | cons parameter rest ih =>
      unfold readParameter at reads
      cases split' : splitOnce ['='] parameter with
      | none =>
          rw [split'] at reads
          cases reads
      | some parts =>
          obtain ⟨key, raw⟩ := parts
          rw [split'] at reads
          simp only [Option.bind_eq_bind, Option.bind_some] at reads
          split at reads
          next other =>
            have unnamed : ∀ another, ¬ Names name parameter another := by
              rintro another ⟨_, _, same, named, _⟩
              cases split'.symm.trans same
              rw [named] at other
              cases other
            obtain ⟨same, none⟩ | ⟨same, front, target, back, whole, named, none⟩ := ih found reads
            · exact .inl ⟨same, List.forall_mem_cons.mpr ⟨unnamed, none⟩⟩
            · refine .inr ⟨same, parameter :: front, target, back, by rw [whole]; rfl, named, ?_⟩
              exact List.forall_mem_cons.mpr ⟨unnamed, none⟩
          next named =>
            split at reads
            next => cases reads
            next unfound =>
              obtain ⟨same, none⟩ | ⟨⟨⟩, _⟩ := ih _ reads
              obtain rfl := Option.some.inj same
              refine .inr ⟨by simpa using unfound, [], parameter, rest, rfl, ?_, none⟩
              exact ⟨key, raw, split', by simpa using named, rfl⟩

/-- A value has one parameter of the name at most. -/
theorem Carries.unique {value other : List Char} (carries : Carries name value raw)
    (also : Carries name value other) : raw = other := by
  obtain ⟨element, front, parameter, back, last, whole, named, none⟩ := carries
  obtain ⟨element', front', parameter', back', last', whole', named', _⟩ := also
  cases last.symm.trans last'
  have member : parameter' ∈ front ++ parameter :: back := by
    rw [← whole, whole']
    simp
  rw [List.mem_append, List.mem_cons] at member
  have same : parameter' = parameter := by
    obtain among | same | among := member
    · exact (none _ (List.mem_append_left _ among) _ named').elim
    · exact same
    · exact (none _ (List.mem_append_right _ among) _ named').elim
  subst same
  obtain ⟨_, _, split, _, rfl⟩ := named
  obtain ⟨_, _, split', _, rfl⟩ := named'
  cases split.symm.trans split'
  rfl

end Parameters

theorem forParameter_some {value raw : List Char} (known : forParameter value = some raw) :
    ∃ element, lastElement value = some element ∧
      readParameter "for" some none (splitOutsideQuotes ';' false element) = some (some raw) := by
  obtain ⟨element, last, rest⟩ := Option.bind_eq_some_iff.mp known
  obtain ⟨found, reads, rest'⟩ := Option.bind_eq_some_iff.mp rest
  obtain ⟨raw', rfl, ends⟩ := Option.bind_eq_some_iff.mp rest'
  split at ends
  next => cases ends
  next =>
    obtain rfl : raw' = raw := Option.some.inj ends
    exact ⟨element, last, reads⟩

theorem forParameter_carries {value raw : List Char} (known : forParameter value = some raw) :
    Carries "for" value raw := by
  obtain ⟨element, last, reads⟩ := forParameter_some known
  obtain ⟨⟨⟩, _⟩ | ⟨_, front, parameter, back, whole, named, none⟩ := readParameter_some none reads
  refine ⟨element, front, parameter, back, ?_, whole, named, none⟩
  unfold lastElement at last
  split at last
  next => cases last
  next =>
    split at last
    next => cases last
    next => exact last

theorem fromForwarded_eq (value : String) :
    fromForwarded value = (forParameter value.toList).bind fun raw => parseAddress (unquote raw) := by
  unfold fromForwarded forParameter
  cases lastElement value.toList with
  | none => rfl
  | some element =>
      have reads : readParameter "for" (fun raw => some (unquote raw)) none
          (splitOutsideQuotes ';' false element) =
          (readParameter "for" some none (splitOutsideQuotes ';' false element)).map
            (Option.map unquote) := readParameter_map some unquote none
      simp only [Option.bind_eq_bind, Option.bind_some]
      rw [reads]
      cases readParameter "for" some none (splitOutsideQuotes ';' false element) with
      | none => rfl
      | some found =>
          cases found with
          | none => rfl
          | some raw =>
              simp only [Option.map_some, Option.bind_some]
              split <;> rfl

/-! ## When it is a node -/

/-- Neither a quote nor a blank. -/
def Bare (character : Char) : Prop := 46 ≤ character.toNat ∧ character.toNat ≤ 102

theorem Bare.quote {character : Char} (bare : Bare character) : (character = '"') = False := by
  rw [eq_iff_iff, iff_false]
  rintro rfl
  exact absurd bare.1 (by decide)

theorem Bare.blank {character : Char} (bare : Bare character) : isWhitespace character = false := by
  obtain ⟨low, high⟩ := bare
  simp only [isWhitespace, Bool.or_eq_false_iff, Bool.and_eq_false_iff, decide_eq_false_iff_not]
  omega

theorem Hexadecimal.bare {character : Char} (hexadecimal : Hexadecimal character) :
    Bare character := by
  have range := hexadecimal.range
  unfold Bare
  omega

theorem Port.bare {text : List Char} (port : Port text) : ∀ character ∈ text, Bare character := by
  cases port with
  | none => simp
  | some filled short numeric =>
      refine List.forall_mem_cons.mpr ⟨by unfold Bare; decide, fun digit member => ?_⟩
      have within := numeric digit member
      rw [isAsciiDigit, Bool.and_eq_true, decide_eq_true_eq, decide_eq_true_eq] at within
      exact ⟨le_trans (by decide) within.1, le_trans within.2 (by decide)⟩

section IpNode

variable {text port : List Char} {address : IpAddr}

theorem IpNode.bare (node : IpNode text address) : ∀ character ∈ text, Bare character := by
  cases node with
  | v4 parses numbered =>
      refine List.forall_mem_append.mpr ⟨fun character member => ?_, numbered.bare⟩
      exact (IpAddr.parse_hexadecimal parses character member).bare
  | v6 parses numbered =>
      rw [List.cons_append, List.forall_mem_cons, List.forall_mem_append, List.forall_mem_cons]
      refine ⟨by unfold Bare; decide, fun character member => ?_, by unfold Bare; decide,
        numbered.bare⟩
      exact (IpAddr.parse_hexadecimal parses character member).bare

theorem IpNode.unquote (node : IpNode text address) : Renvor.unquote text = text :=
  strip_none fun character member => by simp [(node.bare character member).quote]

theorem IpNode.quoted (node : IpNode text address) :
    Renvor.unquote ('"' :: text ++ ['"']) = text :=
  strip_surrounded rfl fun character member => by simp [(node.bare character member).quote]

theorem IpNode.unblank (node : IpNode text address) : strip isWhitespace text = text :=
  strip_none fun character member => (node.bare character member).blank

theorem bracket_hexadecimal {literal : List Char} (parses : IpAddr.parse literal = some address)
    {character : Char} (bracket : character = '[' ∨ character = ']') : character ∉ literal := by
  intro member
  have range := (IpAddr.parse_hexadecimal parses character member).range
  obtain rfl | rfl := bracket <;> exact absurd range (by decide)

/-- An IPv4 node does not begin with a bracket. -/
theorem v4_open {octets : List.Vector Byte 4} (parses : IpAddr.parse text = some (.v4 octets)) :
    (text ++ port).head? ≠ some '[' := by
  cases text with
  | nil => exact (IpAddr.parse_ne_nil parses rfl).elim
  | cons first rest =>
      intro same
      have first : first = '[' := Option.some.inj same
      exact bracket_hexadecimal parses (.inl first) List.mem_cons_self

/-- The rest of an address in brackets. -/
theorem split_bracket {literal after : List Char} (parses : IpAddr.parse literal = some address) :
    splitOnce [']'] (literal ++ ']' :: after) = some (literal, after) :=
  splitOnce_cons (bracket_hexadecimal parses (.inr rfl))

/-- A node has nothing else about it. -/
theorem IpNode.neat (node : IpNode text address) {raw : List Char} (reads : Renvor.unquote raw = text)
    (pair : raw = text ∧ (∃ octets, address = .v4 octets) ∨ raw = '"' :: text ++ ['"']) :
    ¬ Stray raw := by
  intro stray
  cases stray with
  | quotes some unpaired =>
      rw [reads] at some unpaired
      exact pair.elim (fun same => some same.1) unpaired
  | blanks inside =>
      rw [reads] at inside
      exact inside node.unblank
  | bare bracket unquoted =>
      rw [reads] at bracket unquoted
      obtain ⟨_, octets, rfl⟩ | quoted := pair
      · cases node with
        | v4 parses numbered => exact v4_open parses bracket
      · have lengths := congrArg List.length (unquoted.symm.trans quoted)
        simp only [List.length_append, List.length_cons] at lengths
        omega
  | brackets bracket split parses =>
      rw [reads] at bracket
      cases node with
      | v4 first numbered => exact v4_open first (by rw [bracket]; rfl)
      | v6 first numbered =>
          rw [List.cons_append, List.cons.injEq] at bracket
          rw [← bracket.2, split_bracket first] at split
          cases split
          cases first.symm.trans parses
  | afterBrackets bracket split unnumbered =>
      rw [reads] at bracket
      cases node with
      | v4 first numbered => exact v4_open first (by rw [bracket]; rfl)
      | v6 first numbered =>
          rw [List.cons_append, List.cons.injEq] at bracket
          rw [← bracket.2, split_bracket first] at split
          cases split
          exact unnumbered numbered
  | afterHost closed split unnumbered =>
      rw [reads] at closed split
      cases node with
      | v6 first numbered => exact closed rfl
      | v4 first numbered =>
          have absent : ':' ∉ _ := fun member => Decimal.not_colon (IpAddr.parse_v4 first _ member)
          cases numbered with
          | none =>
              rw [List.append_nil, splitOnce_none.mpr absent] at split
              cases split
          | some filled short numeric =>
              rw [splitOnce_cons absent] at split
              cases split
              exact unnumbered (.some filled short numeric)

end IpNode

/-- What is read as an address is a node's value where nothing else is about it. -/
theorem nodeValue_iff {raw : List Char} {address : IpAddr}
    (parsed : parseAddress (unquote raw) = some address) : NodeValue raw address ↔ ¬ Stray raw := by
  constructor
  · intro value
    cases value with
    | plain node => exact node.neat node.unquote (.inl ⟨rfl, _, rfl⟩)
    | quoted node => exact node.neat node.quoted (.inr rfl)
  · intro neat
    have unblank : strip isWhitespace (unquote raw) = unquote raw := by
      by_contra inside
      exact neat (.blanks inside)
    have paired : raw = unquote raw ∨ raw = '"' :: unquote raw ++ ['"'] := by
      by_contra other
      rw [not_or] at other
      exact neat (.quotes other.1 other.2)
    unfold parseAddress at parsed
    rw [unblank] at parsed
    split at parsed
    next => cases parsed
    next rest bracket =>
      obtain ⟨⟨literal, after⟩, split', parsed⟩ := Option.bind_eq_some_iff.mp parsed
      have numbered : Port after := by
        by_contra unnumbered
        exact neat (.afterBrackets bracket split' unnumbered)
      have parses : IpAddr.parse literal = some address := by
        dsimp only at parsed
        split at parsed
        next => cases parsed
        next =>
          unfold rejectZone at parsed
          split at parsed
          next => cases parsed
          next => exact parsed
      obtain ⟨rfl, _⟩ := splitOnce_first split'
      cases address with
      | v4 octets => exact (neat (.brackets bracket split' parses)).elim
      | v6 octets =>
          obtain same | quoted := paired
          · exact (neat (.bare (by rw [bracket]; rfl) same)).elim
          · rw [quoted, bracket]
            exact .quoted (.v6 parses numbered)
    next filled closed =>
      have head : (unquote raw).head? ≠ some '[' := by
        intro bracket
        cases text : unquote raw with
        | nil => exact filled text
        | cons first rest =>
            rw [text] at bracket
            obtain rfl : first = '[' := Option.some.inj bracket
            exact closed rest text
      have value : ∀ {octets}, IpNode (unquote raw) (.v4 octets) → NodeValue raw (.v4 octets) := by
        intro octets node
        obtain same | quoted := paired
        · rw [same]
          exact .plain node
        · rw [quoted]
          exact .quoted node
      split at parsed
      next whole =>
        have parses : IpAddr.parse (unquote raw) = some address := by
          unfold rejectZone at parsed
          split at parsed
          next => cases parsed
          next => exact parsed
        cases address with
        | v6 octets => exact (splitOnce_none.mp whole (IpAddr.parse_v6 parses).2).elim
        | v4 octets =>
            apply value
            rw [← List.append_nil (unquote raw)]
            exact .v4 parses .none
      next host port split' =>
        have numbered : Port (':' :: port) := by
          by_contra unnumbered
          exact neat (.afterHost head split' unnumbered)
        have parses : IpAddr.parse host = some address := by
          split at parsed
          next => cases parsed
          next =>
            unfold rejectZone at parsed
            split at parsed
            next => cases parsed
            next => exact parsed
        obtain ⟨whole, absent⟩ := splitOnce_first split'
        cases address with
        | v6 octets => exact (absent (IpAddr.parse_v6 parses).2).elim
        | v4 octets =>
            apply value
            rw [whole]
            exact .v4 parses numbered

end Renvor
