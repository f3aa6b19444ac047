import Renvor.Generate.ChildOutput
import Renvor.Generate.SealLaws

/-! # What a reported output holds

No control characters, and outside the inserted markers none of the secrets unless an escape
spells one (`Renvor.ChildOutput.hidden_iff`). A secret of characters that are shown as they
are can be spelled where it has something in common with an escape, and nowhere else
(`Renvor.ChildOutput.spelt_one_iff`).
-/

namespace Renvor.ChildOutput

open Foundation.Replacement

/-! ## Control characters -/

/-- A control character is one of the first of all characters. -/
theorem isControl_lt {character : Char} (control : isControl character = true) :
    character.toNat < 0xA0 := by
  simp only [isControl, Bool.or_eq_true, Bool.and_eq_true, decide_eq_true_eq] at control
  omega

/-- The escapes of control characters have no control characters, by evaluation of the few there
are. -/
theorem escapeDebug_plain_below : ∀ code < 0xA0, isControl (Char.ofNat code) = true →
    (escapeDebug (Char.ofNat code)).all (fun character => !isControl character) = true := by
  decide +kernel

/-- An escape holds no control character. -/
theorem escapeDebug_plain {character : Char} (control : isControl character = true) :
    ∀ escaped ∈ escapeDebug character, isControl escaped = false := by
  have same : Char.ofNat character.toNat = character := Char.ofNat_toNat character
  have plain := escapeDebug_plain_below character.toNat (isControl_lt control)
    (by rw [same]; exact control)
  rw [same] at plain
  intro escaped member
  simpa using List.all_eq_true.mp plain escaped member

/-- Every escape begins with a backslash. -/
theorem escapeDebug_cons (character : Char) : ∃ rest, escapeDebug character = '\\' :: rest := by
  unfold escapeDebug
  split_ifs <;> exact ⟨_, rfl⟩

/-- Every character is shown as one character or more. -/
theorem shown_cons (character : Char) : ∃ first rest, shown character = first :: rest := by
  unfold shown
  split
  · exact ⟨_, escapeDebug_cons character⟩
  · exact ⟨character, [], rfl⟩

/-- **A text that is shown holds no control character but line breaks and tabs.** -/
theorem forTerminal_plain {text : List Char} {character : Char}
    (member : character ∈ forTerminal text) (control : isControl character = true) :
    character = '\n' ∨ character = '\t' := by
  obtain ⟨source, _, held⟩ := List.mem_flatMap.mp member
  unfold shown at held
  split at held
  next needs =>
    simp only [needsEscaping, Bool.and_eq_true] at needs
    exact (Bool.false_ne_true ((escapeDebug_plain needs.1.1 character held).symm.trans control)).elim
  next plain =>
    cases List.mem_singleton.mp held
    by_contra other
    rw [not_or] at other
    exact plain (by simp [needsEscaping, control, other.1, other.2])

/-! ## Cells and characters -/

section
variable {α : Type} {read : α → Char} {insert : Char → α} {text head tail : List α}

/-- A text in which no scheme is found stays as it is. -/
theorem redactUrls_none (none : splitAtScheme read text = none) :
    redactUrls read insert text = text := by
  unfold redactUrls
  split
  next => rfl
  next found =>
    rw [none] at found
    cases found

/-- Up to the scheme a text stays as it is, then comes its authority, and what follows is
redacted again. -/
theorem redactUrls_some (split : splitAtScheme read text = some (head, tail)) :
    redactUrls read insert text =
      head ++ redactAuthority read insert (tail.takeWhile fun cell => !endsAuthority (read cell)) ++
        redactUrls read insert (tail.dropWhile fun cell => !endsAuthority (read cell)) := by
  conv_lhs => unfold redactUrls
  split
  next found =>
    rw [split] at found
    cases found
  next found =>
    rw [split] at found
    cases found
    rfl

end

section
variable {α β : Type} {read : α → Char} {insert : Char → α} {read' : β → Char} {insert' : Char → β}
  (carry : α → β) (reads : ∀ cell, read' (carry cell) = read cell)
  (inserts : ∀ character, carry (insert character) = insert' character)
include reads

/-- Characters are read the same once their origin is forgotten. -/
theorem map_read (text : List α) : (text.map carry).map read' = text.map read := by
  rw [List.map_map]
  exact List.map_congr_left fun cell _ => reads cell

/-- Where a scheme stands depends on the characters alone. -/
theorem map_splitAtScheme (text : List α) : splitAtScheme read' (text.map carry) =
    (splitAtScheme read text).map fun parts => (parts.1.map carry, parts.2.map carry) := by
  induction text with
  | nil => rfl
  | cons cell rest ih =>
      rw [List.map_cons, splitAtScheme, splitAtScheme, ← List.map_cons, map_read carry reads]
      split
      · simp [List.map_take, List.map_drop]
      · rw [ih, Option.map_map, Option.map_map]
        rfl

/-- Where the last mark stands depends on the characters alone. -/
theorem map_cutLast (marks : Char → Bool) (text : List α) :
    Foundation.Marks.cutLast (fun cell => marks (read' cell)) (text.map carry) =
      (Foundation.Marks.cutLast (fun cell => marks (read cell)) text).map
        fun parts => (parts.1.map carry, parts.2.map carry) := by
  induction text with
  | nil => rfl
  | cons cell rest ih =>
      rw [List.map_cons, Foundation.Marks.cutLast, Foundation.Marks.cutLast, ih, reads]
      cases Foundation.Marks.cutLast (fun cell => marks (read cell)) rest with
      | some parts => rfl
      | none => by_cases marked : marks (read cell) = true <;> simp [marked]

omit reads in
include inserts in

/-- What is inserted is the same text once its origin is forgotten. -/
theorem map_insert (text : List Char) : (text.map insert).map carry = text.map insert' := by
  rw [List.map_map]
  exact List.map_congr_left fun character _ => inserts character

include inserts

/-- An authority is redacted by its characters alone. -/
theorem map_redactAuthority (authority : List α) :
    (redactAuthority read insert authority).map carry =
      redactAuthority read' insert' (authority.map carry) := by
  unfold redactAuthority
  rw [map_cutLast carry reads (fun character => decide (character = '@'))]
  cases Foundation.Marks.cutLast (fun cell => decide (read cell = '@')) authority with
  | none => rfl
  | some parts => simp [← map_insert carry inserts, List.map_append]

/-- A text is redacted by its characters alone. -/
theorem map_redactUrls (text : List α) :
    (redactUrls read insert text).map carry = redactUrls read' insert' (text.map carry) := by
  fun_induction redactUrls read insert text with
  | case1 text none =>
      rw [redactUrls_none (by rw [map_splitAtScheme carry reads, none]; rfl)]
  | case2 text head tail found ih =>
      have found' : splitAtScheme read' (text.map carry) = some (head.map carry, tail.map carry) := by
        rw [map_splitAtScheme carry reads, found]
        rfl
      have ends : (fun cell => !endsAuthority (read' cell)) ∘ carry =
          fun cell => !endsAuthority (read cell) := by
        funext cell
        rw [Function.comp_apply, reads]
      rw [redactUrls_some found', List.map_append, List.map_append, ih,
        map_redactAuthority carry reads inserts, List.takeWhile_map, List.dropWhile_map, ends]

/-- A secret is concealed by the characters alone. -/
theorem map_conceal (secret : List Char) (out : List α) :
    (conceal read insert secret out).map carry = conceal read' insert' secret (out.map carry) := by
  rw [conceal, map_replace carry reads, map_insert carry inserts, conceal]

/-- A credential is concealed by the characters alone, whatever they come from. -/
theorem map_concealCredential (credential : List Char) (out : List α) :
    (concealCredential read insert out credential).map carry =
      concealCredential read' insert' (out.map carry) credential := by
  unfold concealCredential
  dsimp only
  rw [← map_conceal carry reads inserts]
  split
  · rfl
  · split
    · split
      · rfl
      · rw [map_conceal carry reads inserts]
    · rfl

/-- All credentials are concealed by the characters alone, by induction on them. -/
theorem map_credentials (credentials : List (List Char)) (out : List α) :
    (credentials.foldl (concealCredential read insert) out).map carry =
      credentials.foldl (concealCredential read' insert') (out.map carry) := by
  induction credentials generalizing out with
  | nil => rfl
  | cons credential rest ih =>
      rw [List.foldl_cons, ih, map_concealCredential carry reads inserts, List.foldl_cons]

end

/-- The characters of an untouched text are the text. -/
theorem map_own (text : List Char) : (text.map Cell.own).map Cell.character = text := by
  rw [List.map_map]
  exact List.map_id' text

/-- What is shown depends on the characters alone. -/
theorem map_shown (cells : List Cell) : (cells.flatMap Cell.shown).map Cell.character =
    forTerminal (cells.map Cell.character) := by
  rw [List.map_flatMap, forTerminal, List.flatMap_map]
  refine congrArg (fun render => List.flatMap render cells) (funext fun cell => ?_)
  rw [Cell.shown, List.map_map]
  exact List.map_id' _

/-- The traced output is the reported one, character for character. -/
theorem map_traced (text : List Char) (credentials : List (List Char)) :
    (traced text credentials).map Cell.character = redactedOutput text credentials := by
  have reads : ∀ cell : Cell, id cell.character = cell.character := fun _ => rfl
  have inserts : ∀ character : Char, (Cell.marker character).character = id character := fun _ => rfl
  unfold traced redactedOutput
  rw [map_shown, map_credentials Cell.character reads inserts,
    map_redactUrls Cell.character reads inserts, map_own]

/-! ## Secrets -/

/-- A run without an element lies on one side of it. -/
theorem infix_apart {α : Type} {mark : α} {run front back : List α} (absent : mark ∉ run)
    (inside : run <:+: front ++ mark :: back) : run <:+: front ∨ run <:+: back := by
  induction front with
  | nil =>
      rcases List.infix_cons_iff.mp inside with first | later
      · cases run with
        | nil => exact .inl List.nil_infix
        | cons cell more =>
            obtain ⟨rfl, _⟩ := List.cons_prefix_cons.mp first
            exact (absent List.mem_cons_self).elim
      · exact .inr later
  | cons cell rest ih =>
      rcases List.infix_cons_iff.mp inside with first | later
      · left
        rcases List.prefix_or_prefix_of_prefix first
          (List.prefix_append (cell :: rest) (mark :: back)) with short | long
        · exact short.isInfix
        · obtain ⟨more, whole⟩ := long
          cases more with
          | nil =>
              rw [List.append_nil] at whole
              exact whole ▸ List.infix_rfl
          | cons other more =>
              obtain ⟨last, same⟩ := first
              have same : (cell :: rest) ++ (other :: (more ++ last)) =
                  (cell :: rest) ++ (mark :: back) := by
                rw [← whole, List.append_assoc] at same
                exact same
              obtain ⟨rfl, _⟩ := List.cons.inj (List.append_cancel_left same)
              exact (absent (whole ▸ by simp)).elim
      · exact (ih later).imp_left List.infix_cons

/-- What stands outside the markers of a shown text was shown from outside them. -/
theorem shown_outside {cells run : List Cell} (own : ∀ cell ∈ run, cell.inserted = false)
    (inside : run <:+: cells.flatMap Cell.shown) :
    ∃ source, source <:+: cells ∧ (∀ cell ∈ source, cell.inserted = false) ∧
      run <:+: source.flatMap Cell.shown := by
  induction length : cells.length using Nat.strong_induction_on generalizing cells with
  | _ _ ih =>
  by_cases every : ∀ cell ∈ cells, cell.inserted = false
  · exact ⟨cells, List.infix_rfl, every, inside⟩
  · -- cut at a cell that was inserted, on either side of which the run lies
    push Not at every
    obtain ⟨mark, member, inserted⟩ := every
    obtain ⟨front, back, rfl⟩ := List.append_of_mem member
    obtain ⟨first, rest, shows⟩ := shown_cons mark.character
    have marks : ∀ cell ∈ mark.shown, ¬cell.inserted = false := by
      intro cell held
      obtain ⟨_, _, rfl⟩ := List.mem_map.mp held
      exact inserted
    have cut : mark.shown = ⟨first, mark.inserted⟩ :: rest.map fun character => ⟨character, mark.inserted⟩ := by
      rw [Cell.shown, shows, List.map_cons]
    rw [List.flatMap_append, List.flatMap_cons, cut, List.cons_append] at inside
    rw [List.length_append, List.length_cons] at length
    have absent : (⟨first, mark.inserted⟩ : Cell) ∉ run := fun held =>
      inserted (own ⟨first, mark.inserted⟩ held)
    rcases infix_apart absent inside with before | after
    · obtain ⟨source, within, clean, found⟩ := ih front.length (by omega) before rfl
      exact ⟨source, within.trans (List.prefix_append front _).isInfix, clean, found⟩
    · have after := Foundation.Replacement.kept_append
        (fun cell held => marks cell (cut ▸ List.mem_cons_of_mem _ held)) own after
      obtain ⟨source, within, clean, found⟩ := ih back.length (by omega) after rfl
      exact ⟨source, within.trans ((List.suffix_cons mark back).trans
        (List.suffix_append front _)).isInfix, clean, found⟩

/-- What is shown without a slash is shown from a text without one. -/
theorem shown_cut {text secret : List Char} (absent : '/' ∉ secret)
    (inside : secret <:+: forTerminal text) :
    ∃ source, source <:+: text ∧ '/' ∉ source ∧ secret <:+: forTerminal source := by
  induction length : text.length using Nat.strong_induction_on generalizing text with
  | _ _ ih =>
  by_cases slash : '/' ∈ text
  · obtain ⟨front, back, rfl⟩ := List.append_of_mem slash
    have cut : forTerminal (front ++ '/' :: back) = forTerminal front ++ '/' :: forTerminal back := by
      rw [forTerminal, List.flatMap_append, List.flatMap_cons]
      rfl
    rw [cut] at inside
    rw [List.length_append, List.length_cons] at length
    rcases infix_apart absent inside with before | after
    · obtain ⟨source, within, clean, found⟩ := ih front.length (by omega) before rfl
      exact ⟨source, within.trans (List.prefix_append front _).isInfix, clean, found⟩
    · obtain ⟨source, within, clean, found⟩ := ih back.length (by omega) after rfl
      exact ⟨source, within.trans ((List.suffix_cons '/' back).trans
        (List.suffix_append front _)).isInfix, clean, found⟩
  · exact ⟨text, List.infix_rfl, slash, inside⟩

/-- What is replaced on account of a credential. -/
def secretsOf (credential : List Char) : List (List Char) :=
  (credential :: ((splitOnce [':'] credential).map Prod.snd).toList).filter (· ≠ [])

/-- The secrets are those of each credential, one after the other. -/
theorem secrets_eq (credentials : List (List Char)) :
    secrets credentials = credentials.flatMap secretsOf := by
  rw [secrets, List.filter_flatMap]
  rfl

/-- A credential is replaced, and then its password. -/
theorem concealCredential_eq {α : Type} {read : α → Char} {insert : Char → α} (out : List α)
    (credential : List Char) : concealCredential read insert out credential =
      (secretsOf credential).foldl (fun out secret => conceal read insert secret out) out := by
  unfold concealCredential secretsOf
  by_cases empty : credential = []
  · subst empty
    rfl
  · rw [if_neg empty]
    cases split : splitOnce [':'] credential with
    | none => simp [empty]
    | some parts =>
        obtain ⟨user, password⟩ := parts
        by_cases none : password = [] <;> simp [empty, none]

/-- Concealing the credentials is concealing their secrets one after the other. -/
theorem credentials_eq {α : Type} {read : α → Char} {insert : Char → α}
    (credentials : List (List Char)) (out : List α) :
    credentials.foldl (concealCredential read insert) out =
      (secrets credentials).foldl (fun out secret => conceal read insert secret out) out := by
  rw [secrets_eq]
  induction credentials generalizing out with
  | nil => rfl
  | cons credential rest ih =>
      rw [List.foldl_cons, ih, concealCredential_eq, List.flatMap_cons, List.foldl_append]

/-- No secret is empty, so that each of them has a character to look for. -/
theorem secrets_ne {credentials : List (List Char)} {secret : List Char}
    (member : secret ∈ secrets credentials) : secret ≠ [] :=
  of_decide_eq_true (List.mem_filter.mp member).2

/-- What is kept through the replacements stood in the text and holds none of the secrets. -/
theorem concealed_outside {patterns : List (List Char)} (filled : ∀ pattern ∈ patterns, pattern ≠ [])
    {cells run : List Cell} (own : ∀ cell ∈ run, cell.inserted = false)
    (inside : run <:+: patterns.foldl
      (fun out secret => conceal Cell.character Cell.marker secret out) cells) :
    run <:+: cells ∧ ∀ pattern ∈ patterns, run.map Cell.character ≠ pattern := by
  have marks : ∀ cell ∈ removed.map Cell.marker, ¬cell.inserted = false := by
    intro cell member
    obtain ⟨_, _, rfl⟩ := List.mem_map.mp member
    exact Bool.noConfusion
  induction patterns generalizing cells with
  | nil => exact ⟨inside, fun pattern member => (List.not_mem_nil member).elim⟩
  | cons first rest ih =>
      obtain ⟨kept, others⟩ :=
        ih (fun pattern member => filled pattern (List.mem_cons_of_mem first member)) inside
      refine ⟨kept_stood marks (by decide) own kept, fun pattern member => ?_⟩
      rcases List.mem_cons.mp member with rfl | later
      · exact kept_absent marks (by decide) (filled pattern member) own kept
      · exact others pattern later

/-- A text without slashes has no URL. -/
theorem splitAtScheme_slash {α : Type} {read : α → Char} {text : List α}
    (absent : '/' ∉ text.map read) : splitAtScheme read text = none := by
  induction text with
  | nil => rfl
  | cons cell rest ih =>
      rw [splitAtScheme, if_neg, ih fun member => absent (List.mem_cons_of_mem _ member)]
      · rfl
      · intro first
        exact absent ((List.isPrefixOf_iff_prefix.mp first).mem (by decide))

/-- A text with none of the secrets in it stays. -/
theorem concealed_absent {patterns : List (List Char)} {cells : List Cell}
    (absent : ∀ pattern ∈ patterns, ¬pattern <:+: cells.map Cell.character) :
    patterns.foldl (fun out secret => conceal Cell.character Cell.marker secret out) cells =
      cells := by
  induction patterns with
  | nil => rfl
  | cons first rest ih =>
      rw [List.foldl_cons, conceal, replace_absent (absent first List.mem_cons_self),
        ih fun pattern member => absent pattern (List.mem_cons_of_mem first member)]

/-- **What is hidden**: no secret stands outside the markers of any output, unless an escape
spells one. -/
theorem hidden_iff {credentials : List (List Char)}
    (slash : ∀ secret ∈ secrets credentials, '/' ∉ secret) :
    (∀ text, ∀ secret ∈ secrets credentials, ¬Outside (traced text credentials) secret) ↔
      ¬Spelt (secrets credentials) := by
  constructor
  · rintro hidden ⟨text, absent, secret, member, inside⟩
    obtain ⟨source, within, clean, found⟩ := shown_cut (slash secret member) inside
    have cells := map_own source
    have kept : traced source credentials = (source.map Cell.own).flatMap Cell.shown := by
      unfold traced
      rw [redactUrls_none (splitAtScheme_slash (cells.symm ▸ clean)), credentials_eq,
        concealed_absent fun pattern held => ?_]
      rw [cells]
      exact fun inside => absent pattern held (inside.trans within)
    refine hidden source secret member ?_
    rw [kept]
    rw [← cells, ← map_shown] at found
    obtain ⟨run, stands, rfl⟩ := List.infix_map_iff.mp found
    refine ⟨run, stands, fun cell held => ?_, rfl⟩
    obtain ⟨shown, among, held⟩ := List.mem_flatMap.mp (stands.mem held)
    obtain ⟨character, _, rfl⟩ := List.mem_map.mp among
    obtain ⟨_, _, rfl⟩ := List.mem_map.mp held
    rfl
  · rintro plain text _ member ⟨run, inside, own, rfl⟩
    obtain ⟨source, within, kept, found⟩ := shown_outside own inside
    rw [credentials_eq] at within
    refine plain ⟨source.map Cell.character, fun secret held reached => ?_, _, member, ?_⟩
    · obtain ⟨part, among, rfl⟩ := List.infix_map_iff.mp reached
      exact (concealed_outside (fun pattern => secrets_ne)
        (fun cell held => kept cell (among.mem held)) (among.trans within)).2 _ held rfl
    · rw [← map_shown]
      exact found.map Cell.character

/-! ## What an escape spells -/

/-- A control character is shown as its escape. -/
theorem shown_escaped {character : Char} (needs : needsEscaping character = true) :
    shown character = escapeDebug character := if_pos needs

/-- Any other character is shown as it is. -/
theorem shown_plain {character : Char} (plain : needsEscaping character = false) :
    shown character = [character] := by
  rw [shown, plain]
  rfl

/-- A text of characters that are shown as they are is shown as it is. -/
theorem forTerminal_id {text : List Char}
    (plain : ∀ character ∈ text, needsEscaping character = false) : forTerminal text = text := by
  induction text with
  | nil => rfl
  | cons character rest ih =>
      rw [forTerminal, List.flatMap_cons, shown_plain (plain _ List.mem_cons_self), ← forTerminal,
        ih fun other member => plain other (List.mem_cons_of_mem _ member)]
      rfl

/-- What a shown text begins with is what the text begins with, up to the first escape. -/
theorem prefix_shown {text front : List Char} (begins : front <+: forTerminal text) :
    front <+: text ∨ ∃ character, needsEscaping character = true ∧
      ((∃ part, part ≠ [] ∧ part <+: escapeDebug character ∧ part <:+ front) ∨
        escapeDebug character <:+: front) := by
  induction text generalizing front with
  | nil => exact .inl begins
  | cons character rest ih =>
      cases front with
      | nil => exact .inl List.nil_prefix
      | cons first more =>
          rw [forTerminal, List.flatMap_cons, ← forTerminal] at begins
          cases needs : needsEscaping character with
          | true =>
              rw [shown_escaped needs] at begins
              refine .inr ⟨character, needs, ?_⟩
              rcases List.prefix_or_prefix_of_prefix begins
                (List.prefix_append (escapeDebug character) (forTerminal rest)) with short | long
              · exact .inl ⟨first :: more, List.cons_ne_nil _ _, short, List.suffix_rfl⟩
              · exact .inr long.isInfix
          | false =>
              rw [shown_plain needs, List.singleton_append, List.cons_prefix_cons] at begins
              obtain ⟨rfl, begins⟩ := begins
              rcases ih begins with stands | ⟨escaped, held, meets⟩
              · exact .inl (List.cons_prefix_cons.mpr ⟨rfl, stands⟩)
              · refine .inr ⟨escaped, held, meets.imp ?_ List.infix_cons⟩
                exact fun ⟨part, filled, starts, ends⟩ =>
                  ⟨part, filled, starts, ends.trans (List.suffix_cons _ _)⟩

/-- What stands in a shown text but not in the text has something in common with an escape. -/
theorem meets_of_shown {text secret : List Char} (inside : secret <:+: forTerminal text)
    (absent : ¬secret <:+: text) : MeetsEscape secret := by
  induction text with
  | nil => exact (absent inside).elim
  | cons character rest ih =>
      have later : ¬secret <:+: rest := fun held => absent (List.infix_cons held)
      rw [forTerminal, List.flatMap_cons, ← forTerminal] at inside
      cases needs : needsEscaping character with
      | true =>
          rw [shown_escaped needs, List.infix_append_iff_ne_nil] at inside
          rcases inside with within | after | ⟨part, more, filled, _, rfl, ends, _⟩
          · exact ⟨character, needs, .inl within⟩
          · exact ih after later
          · exact ⟨character, needs, .inr (.inl ⟨part, filled, ends, List.prefix_append _ _⟩)⟩
      | false =>
          rw [shown_plain needs, List.singleton_append, List.infix_cons_iff] at inside
          rcases inside with begins | after
          · have whole : secret <+: forTerminal (character :: rest) := by
              rw [forTerminal, List.flatMap_cons, ← forTerminal, shown_plain needs]
              exact begins
            rcases prefix_shown whole with stands | ⟨escaped, held, meets⟩
            · exact (absent stands.isInfix).elim
            · exact ⟨escaped, held, .inr (.inr meets)⟩
          · exact ih after later

/-- **A secret that an escape spells has something in common with one.** -/
theorem Spelt.meets {secrets : List (List Char)} (spelt : Spelt secrets) :
    ∃ secret ∈ secrets, MeetsEscape secret := by
  obtain ⟨text, absent, secret, member, inside⟩ := spelt
  exact ⟨secret, member, meets_of_shown inside (absent secret member)⟩

/-- A secret does not stand in a text that it would be too long for without a character that it
has not. -/
theorem not_infix_around {mark : Char} {secret front back : List Char} (absent : mark ∉ secret)
    (before : front.length < secret.length) (after : back.length < secret.length) :
    ¬secret <:+: front ++ mark :: back := by
  intro inside
  rcases infix_apart absent inside with left | right
  · exact absurd left.length_le (Nat.not_le.mpr before)
  · exact absurd right.length_le (Nat.not_le.mpr after)

/-- An escape spells a secret that stands in it and the shown characters around it, where there
are fewer of them on either side than the secret has. -/
theorem spelt_around {mark : Char} {secret front back : List Char}
    (needs : needsEscaping mark = true)
    (plain : ∀ character ∈ secret, needsEscaping character = false)
    (left : ∀ character ∈ front, needsEscaping character = false)
    (right : ∀ character ∈ back, needsEscaping character = false)
    (before : front.length < secret.length) (after : back.length < secret.length)
    (inside : secret <:+: front ++ (escapeDebug mark ++ back)) : Spelt [secret] := by
  have absent : mark ∉ secret := fun member => by
    rw [plain mark member] at needs
    cases needs
  refine ⟨front ++ mark :: back, fun other member => ?_, secret, List.mem_singleton_self _, ?_⟩
  · rw [List.mem_singleton.mp member]
    exact not_infix_around absent before after
  · rw [forTerminal, List.flatMap_append, List.flatMap_cons, ← forTerminal, ← forTerminal,
      forTerminal_id left, forTerminal_id right, shown_escaped needs]
    exact inside

/-- **An escape spells a secret of shown characters exactly where the two have something in
common.** -/
theorem spelt_one_iff {secret : List Char} (filled : secret ≠ [])
    (plain : ∀ character ∈ secret, needsEscaping character = false) :
    Spelt [secret] ↔ MeetsEscape secret := by
  have some : 0 < secret.length := List.length_pos_of_ne_nil filled
  have nothing : ∀ character ∈ [], needsEscaping character = false := List.forall_mem_nil _
  constructor
  · intro spelt
    obtain ⟨_, member, meets⟩ := spelt.meets
    exact List.mem_singleton.mp member ▸ meets
  -- the text is the secret, with the escaped character where the two meet
  · rintro ⟨mark, needs, within | ⟨part, begun, ⟨more, whole⟩, ⟨rest, rfl⟩⟩ |
      ⟨part, begun, ⟨more, whole⟩, ⟨front, rfl⟩⟩ | ⟨front, back, rfl⟩⟩
    · refine spelt_around needs plain nothing nothing some some ?_
      simpa using within
    · refine spelt_around needs plain nothing
        (fun character member => plain character (List.mem_append_right part member)) some ?_ ?_
      · rw [List.length_append]
        exact Nat.lt_add_of_pos_left (List.length_pos_of_ne_nil begun)
      · rw [← whole]
        exact ⟨more, [], by simp⟩
    · refine spelt_around needs plain
        (fun character member => plain character (List.mem_append_left part member)) nothing ?_
        some ?_
      · rw [List.length_append]
        exact Nat.lt_add_of_pos_right (List.length_pos_of_ne_nil begun)
      · rw [← whole]
        exact ⟨[], more, by simp⟩
    · have long : 0 < (escapeDebug mark).length := by
        obtain ⟨rest, escape⟩ := escapeDebug_cons mark
        rw [escape]
        exact Nat.succ_pos _
      simp only [List.append_assoc] at plain ⊢
      refine spelt_around needs plain
        (fun character member => plain character (List.mem_append_left _ member))
        (fun character member => plain character (List.mem_append_right _
          (List.mem_append_right _ member))) ?_ ?_ List.infix_rfl
      · simp only [List.length_append]
        omega
      · simp only [List.length_append]
        omega

end Renvor.ChildOutput
