import Renvor.Foundation.Delimited
import Renvor.Generate.Seal

/-! # What the seal lets through

Where the scanner and the reading of a proxy value agree (`Renvor.Seal.stripped_iff`), entry
for entry of an environment.
-/

namespace Renvor.Seal

variable {value : List Char}

/-! ## The two readings of a proxy value -/

theorem not_at : (fun character : Char => decide (character ≠ '@')) =
    fun character => !decide (character = '@') := by
  funext character
  exact decide_not

/-- A text that holds a separator splits no later than there. -/
theorem splitOnce_before (front back : List Char) (separator : List Char) :
    ∃ before after, splitOnce separator (front ++ separator ++ back) = some (before, after) ∧
      before.length ≤ front.length := by
  induction front with
  | nil =>
      refine ⟨[], back, ?_, le_rfl⟩
      cases separator with
      | nil => cases back <;> simp [splitOnce]
      | cons mark rest => simp [splitOnce]
  | cons first rest ih =>
      obtain ⟨before, after, split, shorter⟩ := ih
      rw [List.cons_append, List.cons_append, splitOnce]
      split
      next => exact ⟨[], _, rfl, Nat.zero_le _⟩
      next =>
        rw [split]
        exact ⟨first :: before, after, rfl, Nat.succ_le_succ shorter⟩

/-- Where a text splits does not depend on what follows. -/
theorem splitOnce_again {front back separator : List Char} (other : List Char)
    (split : splitOnce separator (front ++ separator ++ back) = some (front, back)) :
    splitOnce separator (front ++ separator ++ other) = some (front, other) := by
  induction front with
  | nil =>
      obtain ⟨before, after, found, shorter⟩ := splitOnce_before [] other separator
      have empty := List.eq_nil_of_length_eq_zero (Nat.le_zero.mp shorter)
      subst empty
      have whole := splitOnce_some found
      have same := List.append_cancel_left whole
      subst same
      exact found
  | cons first rest ih =>
      rw [List.cons_append, List.cons_append, splitOnce] at split ⊢
      split at split
      next => cases split
      next later =>
        obtain ⟨⟨before, after⟩, found, ends⟩ := Option.map_eq_some_iff.mp split
        cases ends
        rw [if_neg, ih found]
        · rfl
        · intro earlier
          -- an earlier separator would end before the other text begins
          have inside : separator <+: first :: (rest ++ separator) :=
            List.prefix_of_prefix_length_le (List.isPrefixOf_iff_prefix.mp earlier)
              (List.prefix_append (first :: (rest ++ separator)) other) (by simp; omega)
          exact later (List.isPrefixOf_iff_prefix.mpr
            (inside.trans (List.prefix_append (first :: (rest ++ separator)) back)))

/-- What follows the last at sign. -/
theorem rtakeWhile_at (front : List Char) {back : List Char} (clean : '@' ∉ back) :
    (front ++ '@' :: back).rtakeWhile (· ≠ '@') = back := by
  rw [not_at]
  exact Foundation.Marks.rtakeWhile_mark (decide_eq_true rfl) fun character member =>
    decide_eq_false fun same => clean (same ▸ member)

theorem rtakeWhile_append (front : List Char) {back : List Char} (clean : '@' ∉ back) :
    (front ++ back).rtakeWhile (· ≠ '@') = front.rtakeWhile (· ≠ '@') ++ back := by
  rw [not_at]
  exact Foundation.Marks.rtakeWhile_append fun character member =>
    decide_eq_false fun same => clean (same ▸ member)

theorem rtakeWhile_clean {text : List Char} (clean : '@' ∉ text) :
    text.rtakeWhile (· ≠ '@') = text := by
  simpa using rtakeWhile_append [] clean

theorem length_rtakeWhile {text : List Char} :
    (text.rtakeWhile (· ≠ '@')).length < text.length ↔ '@' ∈ text := by
  constructor
  · intro shorter
    by_contra clean
    rw [rtakeWhile_clean clean] at shorter
    exact lt_irrefl _ shorter
  · intro member
    rw [not_at]
    exact Foundation.Marks.length_rtakeWhile_lt member (decide_eq_true rfl)

/-- The last at sign cuts a text. -/
theorem cutLast_at (text : List Char) :
    (Foundation.Marks.cutLast (· = '@') text = none ∧ '@' ∉ text) ∨
      ∃ front back, Foundation.Marks.cutLast (· = '@') text = some (front, back) ∧
        text = front ++ '@' :: back ∧ '@' ∉ back := by
  cases cut : Foundation.Marks.cutLast (· = '@') text with
  | none =>
      exact .inl ⟨rfl, fun member =>
        of_decide_eq_false (Foundation.Marks.cutLast_none cut '@' member) rfl⟩
  | some parts =>
      obtain ⟨mark, marked, whole, clean⟩ := Foundation.Marks.cutLast_some cut
      cases of_decide_eq_true marked
      exact .inr ⟨_, _, rfl, whole, fun member => of_decide_eq_false (clean '@' member) rfl⟩

theorem splitScheme_append (value : List Char) : (splitScheme value).1 ++ (splitScheme value).2 = value := by
  unfold splitScheme
  split
  next scheme rest split => exact (splitOnce_some split).symm
  next => rfl

/-- What the scanner leaves of a value. -/
theorem stripped_eq : (withoutProxyCredential value).1 =
    (splitScheme value).1 ++ ((splitScheme value).2.takeWhile (· ≠ '/')).rtakeWhile (· ≠ '@') ++
      (splitScheme value).2.dropWhile (· ≠ '/') := by
  unfold withoutProxyCredential
  dsimp only
  rcases cutLast_at _ with ⟨cut, clean⟩ | ⟨credential, host, cut, whole, clean⟩
  · rw [cut, rtakeWhile_clean clean, List.append_assoc, List.takeWhile_append_dropWhile,
      splitScheme_append]
  · rw [cut, whole, rtakeWhile_at _ clean]

theorem lead_begins (value : List Char) : lead value <+: value := by
  unfold lead
  dsimp only
  split
  next named =>
    obtain ⟨rest, follows⟩ := named.2
    refine ⟨rest, ?_⟩
    rw [List.append_assoc, follows]
    exact List.prefix_iff_eq_append.mp ( List.takeWhile_prefix _)
  next =>
    split
    next network => exact network
    next => exact List.nil_prefix

theorem parts_append (value : List Char) :
    (parts value).lead ++ ((parts value).authority ++ (parts value).tail) = value := by
  show lead value ++ (_ ++ _) = value
  unfold parts
  rw [List.takeWhile_append_dropWhile]
  exact List.prefix_iff_eq_append.mp (lead_begins value)

/-- An authority holds no slash. -/
theorem slash_authority (value : List Char) : '/' ∉ (parts value).authority := by
  intro member
  have plain := List.mem_takeWhile_imp member
  cases plain

/-- A named scheme holds no colon, and the lead of other values holds none. -/
theorem lead_cases (value : List Char) :
    (∃ scheme, ':' ∉ scheme ∧ lead value = scheme ++ schemeMark) ∨
      lead value = ['/', '/'] ∨ lead value = [] := by
  unfold lead
  dsimp only
  split
  next =>
    refine .inl ⟨_, fun member => ?_, rfl⟩
    have plain := List.mem_takeWhile_imp member
    cases plain
  next =>
    split
    next => exact .inr (.inl rfl)
    next => exact .inr (.inr rfl)

/-- A value is left as it is where no at sign stands in the scanner's authority. -/
theorem stripped_same : (withoutProxyCredential value).1 = value ↔
    '@' ∉ (splitScheme value).2.takeWhile (· ≠ '/') := by
  rw [stripped_eq]
  constructor
  · intro same member
    have shorter := length_rtakeWhile.mpr member
    have whole := congrArg List.length same
    have taken := congrArg List.length (List.takeWhile_append_dropWhile
      (p := (· ≠ '/')) (l := (splitScheme value).2))
    have parts := congrArg List.length (splitScheme_append value)
    simp only [List.length_append] at whole taken parts
    omega
  · intro clean
    rw [rtakeWhile_clean clean, List.append_assoc, List.takeWhile_append_dropWhile,
      splitScheme_append]

/-- A value has no userinfo where no at sign stands in its authority. -/
theorem userinfo_same : withoutUserinfo value = value ↔ '@' ∉ (parts value).authority := by
  have whole := parts_append value
  constructor
  · intro same member
    have shorter := length_rtakeWhile.mpr member
    have kept := congrArg List.length same
    have total := congrArg List.length whole
    simp only [withoutUserinfo, List.length_append] at kept total
    omega
  · intro clean
    rw [withoutUserinfo, rtakeWhile_clean clean, List.append_assoc, whole]

/-- **The scheme is found where it stands**: the readings differ in where the authority ends. -/
theorem stripped_lead (same : (splitScheme value).1 = (parts value).lead) :
    (withoutProxyCredential value).1 = withoutUserinfo value ↔
      '@' ∉ (parts value).tail.takeWhile (· ≠ '/') := by
  have rest : (splitScheme value).2 = (parts value).authority ++ (parts value).tail := by
    refine (List.append_right_inj (parts value).lead).mp ?_
    rw [parts_append, ← same, splitScheme_append]
  have plain : ∀ character ∈ (parts value).authority, decide (character ≠ '/') = true :=
    fun character member => decide_eq_true fun slash => slash_authority value (slash ▸ member)
  rw [stripped_eq, same, rest, List.takeWhile_append_of_pos plain,
    List.dropWhile_append_of_pos plain, withoutUserinfo]
  constructor
  · intro equal member
    obtain ⟨_, clean⟩ | ⟨front, back, _, taken, clean⟩ :=
      cutLast_at ((parts value).tail.takeWhile (· ≠ '/'))
    · exact clean member
    · rw [taken, ← List.append_assoc, rtakeWhile_at _ clean] at equal
      have lengths := congrArg List.length equal
      have total := congrArg List.length (List.takeWhile_append_dropWhile
        (p := (· ≠ '/')) (l := (parts value).tail))
      rw [taken] at total
      simp only [List.length_append, List.length_cons] at lengths total
      omega
  · intro clean
    rw [rtakeWhile_append _ clean, List.append_assoc, List.append_assoc, List.append_assoc,
      List.takeWhile_append_dropWhile]

/-- A lead that is not what stands before the first `://` holds no colon. -/
theorem colon_lead {scheme back : List Char}
    (split : splitOnce schemeMark value = some (scheme, back))
    (other : scheme ++ schemeMark ≠ lead value) : ':' ∉ lead value := by
  have whole := splitOnce_some split
  rcases lead_cases value with ⟨named, clean, led⟩ | led | led
  · obtain ⟨rest, begins⟩ := lead_begins value
    rw [led] at begins
    obtain ⟨before, after, found, shorter⟩ := splitOnce_before named rest schemeMark
    rw [begins, split] at found
    cases found
    -- the first mark stands no later than the named one, and so is that one
    have first : scheme <+: value := by
      rw [whole, List.append_assoc]
      exact List.prefix_append _ _
    have second : named <+: value := by
      rw [← begins, List.append_assoc]
      exact List.prefix_append _ _
    have front := List.prefix_of_prefix_length_le first second shorter
    have absent : ':' ∉ scheme := fun member => clean (front.mem member)
    rw [whole, List.append_assoc, List.append_assoc] at begins
    obtain ⟨rfl, _⟩ := Foundation.Delimited.append_mark_inj clean absent begins
    exact (other led.symm).elim
  · rw [led]
    decide
  · rw [led]
    exact List.not_mem_nil

/-- Where the first `://` is not the one after the scheme, it stands after the authority or
ends it. -/
theorem stripped_elsewhere {scheme back : List Char}
    (split : splitOnce schemeMark value = some (scheme, back))
    (other : scheme ++ schemeMark ≠ lead value) :
    ∃ front left, scheme = lead value ++ front ∧
      (parts value).authority.rtakeWhile (· ≠ '@') ++ (parts value).tail =
        left ++ schemeMark ++ back ∧
      ('@' ∈ (parts value).authority → left.length < front.length) := by
  have whole := (parts_append value).trans (splitOnce_some split)
  have colon := colon_lead split other
  rw [List.append_assoc scheme] at whole
  obtain ⟨front, led, rest⟩ : ∃ front, scheme = lead value ++ front ∧
      (parts value).authority ++ (parts value).tail = front ++ (schemeMark ++ back) := by
    rcases List.append_eq_append_iff.mp whole with found | ⟨between, led, rest⟩
    · exact found
    · cases between with
      | nil => exact ⟨[], (led.trans (List.append_nil scheme)).symm.trans (List.append_nil _).symm, by simpa using rest.symm⟩
      | cons first more =>
          obtain ⟨rfl, _⟩ := List.cons.inj rest
          have member : ':' ∈ (parts value).lead :=
            led ▸ List.mem_append_right scheme List.mem_cons_self
          exact (colon member).elim
  rcases List.append_eq_append_iff.mp rest with ⟨after, authority, tail⟩ | ⟨last, authority, tail⟩
  · refine ⟨front, (parts value).authority.rtakeWhile (· ≠ '@') ++ after, led, ?_, ?_⟩
    · rw [tail, List.append_assoc, List.append_assoc]
    · intro member
      have shorter := length_rtakeWhile.mpr member
      have lengths := congrArg List.length authority
      rw [List.length_append] at lengths ⊢
      omega
  · -- the authority reaches the mark, of which it can hold the colon only
    have clean : '@' ∉ last := by
      match last, tail with
      | [], _ => exact List.not_mem_nil
      | [first], tail =>
          cases (List.cons.inj tail).1
          decide
      | first :: second :: more, tail =>
          obtain ⟨_, tail⟩ := List.cons.inj tail
          obtain ⟨slash, _⟩ := List.cons.inj tail
          cases slash
          exact (slash_authority value (authority ▸ by simp)).elim
    refine ⟨front, front.rtakeWhile (· ≠ '@'), led, ?_, ?_⟩
    · rw [authority, rtakeWhile_append _ clean, List.append_assoc, ← tail, List.append_assoc]
    · intro member
      rw [authority, List.mem_append] at member
      exact length_rtakeWhile.mpr (member.resolve_right clean)

/-- A value that splits nowhere holds no `://`. -/
theorem lead_none (split : splitOnce schemeMark value = none) :
    lead value = ['/', '/'] ∨ lead value = [] := by
  rcases lead_cases value with ⟨named, _, led⟩ | others
  · obtain ⟨rest, begins⟩ := lead_begins value
    rw [led] at begins
    obtain ⟨before, after, found, _⟩ := splitOnce_before named rest schemeMark
    rw [begins, split] at found
    cases found
  · exact others

/-- What follows the first `://` is the scanner's authority, where that is not the one of the
value as a whole. -/
theorem followed_eq (other : (splitScheme value).1 ≠ lead value) :
    (splitScheme value).2.takeWhile (· ≠ '/') = followed value := by
  cases split : splitOnce schemeMark value with
  | some found => simp [splitScheme, followed, split]
  | none =>
      simp only [splitScheme, followed, split] at other ⊢
      rcases lead_none split with led | led
      · obtain ⟨rest, begins⟩ := lead_begins value
        rw [← begins, led]
        rfl
      · exact (other led.symm).elim

/-- The readings do not both take something out and leave the same. -/
theorem stripped_apart (other : (splitScheme value).1 ≠ lead value)
    (member : '@' ∈ (parts value).authority) (taken : '@' ∈ followed value) :
    (withoutProxyCredential value).1 ≠ withoutUserinfo value := by
  cases split : splitOnce schemeMark value with
  | none =>
      simp only [followed, split] at taken
      exact (List.not_mem_nil taken).elim
  | some found =>
      obtain ⟨scheme, back⟩ := found
      have first : (splitScheme value).1 = scheme ++ schemeMark := by simp [splitScheme, split]
      rw [first] at other
      obtain ⟨front, left, led, rest, shorter⟩ := stripped_elsewhere split other
      intro same
      have whole := splitOnce_some split
      rw [stripped_eq, first, List.append_assoc (scheme ++ schemeMark), withoutUserinfo,
        List.append_assoc (parts value).lead, rest, ← List.append_assoc (parts value).lead,
        ← List.append_assoc (parts value).lead] at same
      have again := splitOnce_again
        (((splitScheme value).2.takeWhile (· ≠ '/')).rtakeWhile (· ≠ '@') ++
          (splitScheme value).2.dropWhile (· ≠ '/')) (whole ▸ split)
      obtain ⟨before, after, earlier, bound⟩ :=
        splitOnce_before ((parts value).lead ++ left) back schemeMark
      rw [same, earlier] at again
      cases again
      have longer := congrArg List.length led
      have before := shorter member
      rw [List.length_append] at longer bound
      have leads : (parts value).lead.length = (lead value).length := rfl
      omega

/-- **Where the two readings of a proxy value agree.** -/
theorem stripped_iff (value : List Char) :
    (withoutProxyCredential value).1 = withoutUserinfo value ↔ Plain value := by
  unfold Plain
  by_cases same : (splitScheme value).1 = (parts value).lead
  · rw [stripped_lead same]
    exact ⟨fun clean => ⟨fun _ => clean, fun other => (other same).elim⟩, fun plain => plain.1 same⟩
  · have scanned : (withoutProxyCredential value).1 = value ↔ '@' ∉ followed value := by
      rw [stripped_same, followed_eq same]
    constructor
    · intro equal
      refine ⟨fun lead => (same lead).elim, fun _ => ?_⟩
      by_cases member : '@' ∈ (parts value).authority
      · by_cases taken : '@' ∈ followed value
        · exact (stripped_apart same member taken equal).elim
        · exact (userinfo_same.mp (equal.symm.trans (scanned.mpr taken)) member).elim
      · exact ⟨member, scanned.mp (equal.trans (userinfo_same.mpr member))⟩
    · intro plain
      obtain ⟨authority, taken⟩ := plain.2 same
      exact (scanned.mpr taken).trans (userinfo_same.mpr authority).symm

/-- A credential holds no slash. -/
theorem slash_stripped {credential : List Char}
    (taken : (withoutProxyCredential value).2 = some credential) : '/' ∉ credential := by
  unfold withoutProxyCredential at taken
  dsimp only at taken
  rcases cutLast_at ((splitScheme value).2.takeWhile (· ≠ '/')) with
    ⟨cut, _⟩ | ⟨front, back, cut, whole, _⟩
  · rw [cut] at taken
    cases taken
  · rw [cut] at taken
    cases taken
    intro member
    have among : '/' ∈ (splitScheme value).2.takeWhile (· ≠ '/') := by
      rw [whole]
      exact List.mem_append_left _ member
    have plain := List.mem_takeWhile_imp among
    cases plain

/-! ## The environment -/

section
variable {windows : Bool} {parent : List Variable}

theorem sameVariableName_iff {left right : String} : sameVariableName windows left right = true ↔
    (if windows then left.toList.map Char.toLower = right.toList.map Char.toLower
      else left = right) := by
  unfold sameVariableName eqIgnoreAsciiCase
  cases windows <;> simp

theorem sameVariableName_trans {left middle right : String}
    (first : sameVariableName windows left middle = true)
    (second : sameVariableName windows middle right = true) :
    sameVariableName windows left right = true := by
  rw [sameVariableName_iff] at first second ⊢
  cases windows with
  | false => exact Eq.trans first second
  | true => exact Eq.trans first second

/-- No name on the list is the forced one or one that never passes. -/
theorem passedThrough_apart (windows : Bool) : ∀ allowed ∈ passedThrough,
    sameVariableName windows allowed forcedNoInstall.1 = false ∧
      isNeverPassed windows allowed = false := by
  cases windows <;> decide +kernel

theorem isPassedThrough_apart {name : String} (passes : isPassedThrough windows name = true) :
    sameVariableName windows name forcedNoInstall.1 = false ∧
      isNeverPassed windows name = false := by
  obtain ⟨allowed, member, same⟩ := List.any_eq_true.mp passes
  obtain ⟨forced, never⟩ := passedThrough_apart windows allowed member
  constructor
  · exact eq_false_of_ne_true fun reached =>
      Bool.false_ne_true (forced.symm.trans (sameVariableName_trans same reached))
  · refine eq_false_of_ne_true fun reached => Bool.false_ne_true (never.symm.trans ?_)
    obtain ⟨barred, among, reached⟩ := List.any_eq_true.mp reached
    exact List.any_eq_true.mpr ⟨barred, among, sameVariableName_trans same reached⟩

/-- What the seal keeps of a variable stands under a name on the list. -/
theorem sealVariable_name {entry : Variable} {kept : Variable × Option (List Char)}
    (keeps : sealVariable windows entry = some kept) :
    ∃ name, kept.1.1 = .text name ∧ isPassedThrough windows name = true := by
  obtain ⟨name | units, value⟩ := entry
  · unfold sealVariable at keeps
    dsimp only [OsString.toStr] at keeps
    split at keeps
    next passes =>
      refine ⟨name, ?_, passes⟩
      split at keeps
      next =>
        split at keeps
        next => cases keeps
        next =>
          cases keeps
          rfl
      next =>
        cases keeps
        rfl
    next => cases keeps
  · cases keeps

theorem slash_credential {entry kept : Variable} {credential : List Char}
    (keeps : sealVariable windows entry = some (kept, some credential)) : '/' ∉ credential := by
  obtain ⟨name | units, value⟩ := entry
  · unfold sealVariable at keeps
    dsimp only [OsString.toStr] at keeps
    split at keeps
    next =>
      split at keeps
      next =>
        split at keeps
        next => cases keeps
        next text _ =>
          obtain ⟨_, taken⟩ := Prod.mk.inj (Option.some.inj keeps)
          exact slash_stripped taken
      next => cases keeps
    next => cases keeps
  · cases keeps

/-- A child receives what the seal kept, and the forced variable. -/
theorem environment_eq (windows : Bool) (parent : List Variable) :
    (sealParent windows parent).environment windows =
      parent.filterMap (fun entry => (sealVariable windows entry).map Prod.fst) ++
        [(.text forcedNoInstall.1, .text forcedNoInstall.2)] := by
  unfold Sealed.environment sealParent
  dsimp only
  rw [List.map_filterMap]
  refine congrArg (· ++ _) (List.filter_eq_self.mpr fun entry member => ?_)
  obtain ⟨before, _, kept⟩ := List.mem_filterMap.mp member
  obtain ⟨left, keeps, rfl⟩ := Option.map_eq_some_iff.mp kept
  obtain ⟨name, named, passes⟩ := sealVariable_name keeps
  obtain ⟨forced, never⟩ := isPassedThrough_apart passes
  rw [named]
  simp [OsString.toStr, forced, never]

/-- No install-server variable reaches a child. -/
theorem environment_never {kept : Sealed} {name : String} {value : OsString}
    (member : (OsString.text name, value) ∈ kept.environment windows) :
    isNeverPassed windows name = false := by
  unfold Sealed.environment at member
  rcases List.mem_append.mp member with held | forced
  · have passes := (List.mem_filter.mp held).2
    simp only [OsString.toStr, Bool.and_eq_true, Bool.not_eq_true'] at passes
    exact passes.2
  · cases List.mem_singleton.mp forced
    cases windows <;> decide +kernel

/-- What the seal keeps of a variable is what is expected, where its value is taken apart
exactly. -/
theorem sealVariable_iff (entry : Variable) :
    (sealVariable windows entry).map Prod.fst = expectedVariable windows entry ↔
      ∀ name value, entry = (.text name, .text value) → isPassedThrough windows name = true →
        isProxy windows name = true → Plain value.toList := by
  obtain ⟨name | units, value⟩ := entry
  · by_cases passes : isPassedThrough windows name = true
    · by_cases proxy : isProxy windows name = true
      · cases value with
        | other units =>
            refine ⟨fun _ name value same => ?_, fun _ => ?_⟩
            · cases same
            · simp [sealVariable, expectedVariable, OsString.toStr, passes, proxy]
        | text value =>
            have agrees : (sealVariable windows (.text name, .text value)).map Prod.fst =
                expectedVariable windows (.text name, .text value) ↔
                (withoutProxyCredential value.toList).1 = withoutUserinfo value.toList := by
              simp [sealVariable, expectedVariable, OsString.toStr, passes, proxy,
                String.ofList_inj]
            rw [agrees, stripped_iff]
            constructor
            · intro plain name value same
              cases same
              exact fun _ _ => plain
            · exact fun all => all name value rfl passes proxy
      · refine ⟨fun _ other value same _ reached => ?_, fun _ => ?_⟩
        · cases same
          exact (proxy reached).elim
        · simp [sealVariable, expectedVariable, OsString.toStr, passes, proxy]
    · refine ⟨fun _ other value same reached => ?_, fun _ => ?_⟩
      · cases same
        exact (passes reached).elim
      · simp [sealVariable, expectedVariable, OsString.toStr, passes]
  · exact ⟨fun _ name value same => (nomatch same), fun _ => rfl⟩

/-- The seal keeps a variable where one is expected. -/
theorem sealVariable_isSome (entry : Variable) :
    ((sealVariable windows entry).map Prod.fst).isSome =
      (expectedVariable windows entry).isSome := by
  obtain ⟨name | units, value⟩ := entry
  · by_cases passes : isPassedThrough windows name = true
    · by_cases proxy : isProxy windows name = true
      · cases value <;>
          simp [sealVariable, expectedVariable, OsString.toStr, passes, proxy]
      · simp [sealVariable, expectedVariable, OsString.toStr, passes, proxy]
    · simp [sealVariable, expectedVariable, OsString.toStr, passes]
  · rfl

end

/-- Two readings that keep the same items agree where they agree on each. -/
theorem filterMap_iff {α β : Type*} {left right : α → Option β} {items : List α}
    (alike : ∀ item, (left item).isSome = (right item).isSome) :
    items.filterMap left = items.filterMap right ↔ ∀ item ∈ items, left item = right item := by
  induction items with
  | nil => exact ⟨fun _ item member => (List.not_mem_nil member).elim, fun _ => rfl⟩
  | cons first rest ih =>
      have same := alike first
      rw [List.forall_mem_cons, ← ih, List.filterMap_cons, List.filterMap_cons]
      cases one : left first <;> cases two : right first <;> simp_all

/-- **What a child receives** is what is expected where every proxy value is taken apart
exactly. -/
theorem environment_iff (windows : Bool) (parent : List Variable) :
    (sealParent windows parent).environment windows = expected windows parent ↔
      PlainProxies windows parent := by
  rw [environment_eq, expected, List.append_left_inj, filterMap_iff sealVariable_isSome]
  constructor
  · intro agrees name value member
    exact (sealVariable_iff _).mp (agrees _ member) name value rfl
  · intro plain entry member
    refine (sealVariable_iff entry).mpr fun name value same => ?_
    exact plain name value (same ▸ member)

/-- **Parents that differ only in what does not pass** give a child the same. -/
theorem environment_same {windows : Bool} {left right : List Variable}
    (same : expected windows left = expected windows right) (plain : PlainProxies windows left)
    (plain' : PlainProxies windows right) :
    (sealParent windows left).environment windows =
      (sealParent windows right).environment windows := by
  rw [(environment_iff windows left).mpr plain, (environment_iff windows right).mpr plain', same]

end Renvor.Seal
