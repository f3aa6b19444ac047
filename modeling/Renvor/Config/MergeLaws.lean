import Renvor.Config.Settings

/-! # Making settings in turn

Settings that agree on a shape for each dotted name can be made one after
another, and then each key path has what was set last
(`Renvor.makeSettings_ok`, `Renvor.agreed_of_makeSettings`).
-/

namespace Renvor

/-- What is at a key path: a table, or a leaf. -/
inductive Node
  | table
  | leaf (value : TomlValue)

def Node.of : TomlValue → Node
  | .table _ => table
  | value => leaf value

def Node.shape : Node → String
  | table => "table"
  | leaf value => shapeOf value

/-- What a table has at a key path. -/
def look : List String → TomlTable → Option Node
  | [], _ => some .table
  | key :: rest, entries => match entries.lookup key with
      | none => none
      | some (.table inner) => look rest inner
      | some value => if rest = [] then some (.leaf value) else none

theorem Node.shape_of (value : TomlValue) : (Node.of value).shape = shapeOf value := by
  cases value <;> rfl

theorem shapeOf_table {value : TomlValue} (shape : shapeOf value = "table") :
    ∃ inner, value = .table inner := by
  cases value <;> simp [shapeOf] at shape ⊢

theorem Node.of_leaf {value : TomlValue} (leaf : shapeOf value ≠ "table") :
    Node.of value = .leaf value := by
  cases value with
  | table => exact (leaf rfl).elim
  | string | integer | float | boolean | datetime | array => rfl

theorem Node.of_table {value : TomlValue} (shape : shapeOf value = "table") :
    Node.of value = .table := by
  obtain ⟨inner, rfl⟩ := shapeOf_table shape
  rfl

/-! ## Setting one key path -/

/-- What is found after a path is set. -/
def lookAfter (path : List String) (value : TomlValue) (before : List String → Option Node)
    (other : List String) : Option Node :=
  if other = path then some (.of value)
  else if other <+: path then some .table
  else if path <+: other ∧ shapeOf value ≠ "table" then none
  else before other

/-- No table is to be made where there is a leaf. -/
def Clear (path : List String) (value : TomlValue) (entries : TomlTable) : Prop :=
  ∀ other, other <+: path → (other = path → shapeOf value = "table") →
    ∀ leaf, look other entries ≠ some (.leaf leaf)

/-- The state after a path is set. -/
structure Sets (layer : SourceLayer) (name : String) (path : List String) (value : TomlValue)
    (before after : Overlaying) : Prop where
  looks : ∀ other, look other after.into = lookAfter path value (look · before.into) other
  attribution : after.attribution = if shapeOf value = "table" then before.attribution
    else Function.update before.attribution name (some ⟨layer, presenceOf value⟩)
  shapes : after.shapes = if (before.shapes name).isSome then before.shapes
    else Function.update before.shapes name (some (layer, shapeOf value))

/-- What is found in a value. -/
def lookIn (rest : List String) : TomlValue → Option Node
  | .table inner => look rest inner
  | value => if rest = [] then some (.leaf value) else none

theorem look_cons (key : String) (rest : List String) (entries : TomlTable) :
    look (key :: rest) entries = (entries.lookup key).bind (lookIn rest) := by
  unfold look
  cases entries.lookup key with
  | none => rfl
  | some value => cases value <;> rfl

theorem look_insert (key other : String) (rest : List String) (value : TomlValue)
    (entries : TomlTable) : look (other :: rest) (TomlTable.insert key value entries) =
      if other = key then lookIn rest value else look (other :: rest) entries := by
  rw [look_cons, look_cons, TomlTable.lookup_insert]
  split <;> rfl

theorem look_nil_table (rest : List String) (nonempty : rest ≠ []) : look rest [] = none := by
  cases rest with
  | nil => exact (nonempty rfl).elim
  | cons key rest => rfl

theorem lookIn_leaf {value : TomlValue} (leaf : shapeOf value ≠ "table") (rest : List String) :
    lookIn rest value = if rest = [] then some (.of value) else none := by
  cases value with
  | table => exact (leaf rfl).elim
  | string | integer | float | boolean | datetime | array => rfl

/-- A slot is a table, or is to be made. -/
theorem slot_ok (layer : SourceLayer) (path : String) {state : Overlaying} {key : String}
    (clear : ∀ leaf, look [key] state.into ≠ some (.leaf leaf)) :
    ∃ existing, state.slot layer path key = .ok existing ∧
      (state.into.lookup key = some (.table existing) ∨
        state.into.lookup key = none ∧ existing = []) := by
  unfold Overlaying.slot
  cases held : state.into.lookup key with
  | none => exact ⟨[], rfl, .inr ⟨rfl, rfl⟩⟩
  | some value =>
      by_cases shape : shapeOf value = "table"
      · obtain ⟨existing, rfl⟩ := shapeOf_table shape
        exact ⟨existing, rfl, .inl rfl⟩
      · refine (clear value ?_).elim
        rw [look_cons, held, Option.bind_some, lookIn_leaf shape, if_pos rfl, Node.of_leaf shape]

theorem prefix_singleton {first key : String} {rest : List String} :
    first :: rest <+: [key] ↔ first = key ∧ rest = [] := by
  rw [List.cons_prefix_cons, List.prefix_nil]

theorem prefix_single {first key : String} {rest : List String} :
    [key] <+: first :: rest ↔ key = first := by
  rw [List.cons_prefix_cons]
  exact and_iff_left List.nil_prefix

/-- Making room for a table. -/
theorem look_made {key : String} {existing entries : TomlTable}
    (held : entries.lookup key = some (.table existing) ∨
      entries.lookup key = none ∧ existing = []) (other : List String) :
    look other (TomlTable.insert key (.table existing) entries) =
      if other <+: [key] then some .table else look other entries := by
  cases other with
  | nil => rfl
  | cons first rest =>
      rw [look_insert]
      by_cases same : first = key
      · subst same
        rw [if_pos rfl]
        by_cases here : rest = []
        · rw [if_pos (prefix_singleton.mpr ⟨rfl, here⟩), here]
          rfl
        · rw [if_neg fun above => here (prefix_singleton.mp above).2, look_cons]
          obtain there | ⟨absent, rfl⟩ := held
          · rw [there]
            rfl
          · rw [absent]
            exact look_nil_table rest here
      · rw [if_neg same, if_neg fun above => same (prefix_singleton.mp above).1]

theorem claim_ok (layer : SourceLayer) (name : String) {state : Overlaying} {shape : String}
    (fits : ∀ first, state.shapes name = some first → first.2 = shape) :
    state.claim layer name shape = .ok { state with
      shapes := if (state.shapes name).isSome then state.shapes
        else Function.update state.shapes name (some (layer, shape)) } := by
  unfold Overlaying.claim
  cases held : state.shapes name with
  | none => rfl
  | some first =>
      obtain ⟨earlier, firstShape⟩ := first
      obtain rfl : firstShape = shape := fits _ held
      simp

/-- Setting a key. -/
theorem put_ok (layer : SourceLayer) (name : String) {state : Overlaying} {key : String}
    {value : TomlValue}
    (clear : Clear [key] value state.into) :
    ∃ after, state.put layer name key value = .ok after ∧ after.shapes = state.shapes ∧
      (after.attribution = if shapeOf value = "table" then state.attribution
        else Function.update state.attribution name (some ⟨layer, presenceOf value⟩)) ∧
      ∀ other, look other after.into = lookAfter [key] value (look · state.into) other := by
  by_cases shape : shapeOf value = "table"
  · obtain ⟨inner, rfl⟩ := shapeOf_table shape
    obtain ⟨existing, slot, held⟩ := slot_ok layer name
      (clear [key] (List.prefix_refl _) fun _ => rfl)
    refine ⟨{ state with into := TomlTable.insert key (.table existing) state.into }, ?_, rfl,
      (if_pos rfl).symm, ?_⟩
    · show (state.slot layer name key >>= _) = _
      rw [slot]
      rfl
    · intro other
      rw [look_made held]
      unfold lookAfter
      by_cases same : other = [key]
      · rw [if_pos same, if_pos (same ▸ List.prefix_refl _)]
        rfl
      · rw [if_neg same]
        by_cases above : other <+: [key]
        · rw [if_pos above, if_pos above]
        · rw [if_neg above, if_neg above, if_neg fun both => both.2 rfl]
  · refine ⟨state.leaf layer name key value, ?_, rfl, (if_neg shape).symm, ?_⟩
    · unfold Overlaying.put
      cases value with
      | table => exact (shape rfl).elim
      | string | integer | float | boolean | datetime | array => rfl
    · intro other
      unfold lookAfter
      cases other with
      | nil => rfl
      | cons first rest =>
          show look (first :: rest) (TomlTable.insert key value state.into) = _
          rw [look_insert]
          by_cases same : first = key
          · subst same
            rw [if_pos rfl, lookIn_leaf shape]
            by_cases here : rest = []
            · rw [if_pos here, here, if_pos rfl]
            · have apart : first :: rest ≠ [first] := by simpa using here
              have above : ¬ first :: rest <+: [first] := fun above =>
                here (prefix_singleton.mp above).2
              rw [if_neg here, if_neg apart, if_neg above,
                if_pos ⟨prefix_single.mpr rfl, shape⟩]
          · have apart : first :: rest ≠ [key] := fun eq => same (List.cons.inj eq).1
            have above : ¬ first :: rest <+: [key] := fun above =>
              same (prefix_singleton.mp above).1
            rw [if_neg same, if_neg apart, if_neg above,
              if_neg fun both => same (prefix_single.mp both.1).symm]

theorem lookAfter_cons (key : String) (path : List String) (value : TomlValue)
    (before : List String → Option Node) (other : List String) :
    lookAfter (key :: path) value before (key :: other) =
      lookAfter path value (fun other => before (key :: other)) other := by
  simp only [lookAfter, List.cons.injEq, true_and, List.prefix_cons_inj]

theorem lookAfter_apart {key first : String} (apart : first ≠ key) (path : List String)
    (value : TomlValue) (before : List String → Option Node) (other : List String) :
    lookAfter (key :: path) value before (first :: other) = before (first :: other) := by
  unfold lookAfter
  rw [if_neg fun eq => apart (List.cons.inj eq).1,
    if_neg fun above => apart (List.cons_prefix_cons.mp above).1,
    if_neg fun both => apart (List.cons_prefix_cons.mp both.1).1.symm]

/-- Setting a path that is clear, in a shape that fits. -/
theorem setPath_ok (layer : SourceLayer) (value : TomlValue) (path : List String)
    (nonempty : path ≠ []) (above : String) (state : Overlaying)
    (clear : Clear path value state.into)
    (fits : ∀ first, state.shapes (dottedFrom above path) = some first →
      first.2 = shapeOf value) :
    ∃ after, setPath layer above path value state = .ok after ∧
      Sets layer (dottedFrom above path) path value state after := by
  induction path generalizing above state with
  | nil => exact (nonempty rfl).elim
  | cons key rest ih =>
      cases rest with
      | nil =>
          obtain ⟨after, put, shapes, attribution, looks⟩ := put_ok layer
            (dottedBelow above key) (show Clear [key] value { state with
              shapes := if (state.shapes (dottedBelow above key)).isSome then state.shapes
                else Function.update state.shapes (dottedBelow above key)
                  (some (layer, shapeOf value)) }.into from clear)
          refine ⟨after, ?_, looks, attribution, shapes⟩
          show (state.claim layer (dottedBelow above key) (shapeOf value) >>= _) = _
          rw [claim_ok layer (dottedBelow above key) fits]
          exact put
      | cons next rest =>
          have first : ∀ leaf, look [key] state.into ≠ some (.leaf leaf) := by
            refine clear [key] (prefix_single.mpr rfl) fun same => ?_
            cases same
          obtain ⟨existing, slot, held⟩ := slot_ok layer
            (dottedBelow above key) first
          have inside : ∀ other, other ≠ [] →
              look (key :: other) state.into = look other existing := by
            intro other deep
            rw [look_cons]
            obtain there | ⟨absent, rfl⟩ := held
            · rw [there]
              rfl
            · rw [absent]
              exact (look_nil_table other deep).symm
          have clearInside : Clear (next :: rest) value existing := by
            intro other within whole leaf found
            cases other with
            | nil => cases found
            | cons first more =>
                refine clear (key :: first :: more) ((List.prefix_cons_inj key).mpr within)
                  (fun same => whole (List.cons.inj same).2) leaf ?_
                rw [inside _ (List.cons_ne_nil _ _)]
                exact found
          obtain ⟨below, made, looks, attribution, shapes⟩ := ih (List.cons_ne_nil _ _)
            (dottedBelow above key) { state with into := existing } clearInside fits
          refine ⟨{ below with into := TomlTable.insert key (.table below.into) state.into }, ?_,
            ?_, attribution, shapes⟩
          · show (state.slot layer (dottedBelow above key) key >>= _) = _
            rw [slot]
            show (setPath layer (dottedBelow above key) (next :: rest) value
              { state with into := existing } >>= _) = _
            rw [made]
            rfl
          · intro other
            cases other with
            | nil => rfl
            | cons first more =>
                show look (first :: more) (TomlTable.insert key _ state.into) = _
                rw [look_insert]
                by_cases same : first = key
                · subst same
                  rw [if_pos rfl, lookAfter_cons]
                  refine (looks more).trans ?_
                  cases more with
                  | nil => rfl
                  | cons second more =>
                      unfold lookAfter
                      simp only [inside _ (List.cons_ne_nil second more)]
                · rw [if_neg same, lookAfter_apart same]

/-- A path is set only in a shape that fits. -/
theorem setPath_fits {layer : SourceLayer} {value : TomlValue} {path : List String}
    (nonempty : path ≠ []) {above : String} {state after : Overlaying}
    (set : setPath layer above path value state = .ok after) :
    ∀ first, state.shapes (dottedFrom above path) = some first → first.2 = shapeOf value := by
  induction path generalizing above state after with
  | nil => exact (nonempty rfl).elim
  | cons key rest ih =>
      cases rest with
      | nil =>
          intro first held
          change (state.claim layer (dottedBelow above key) (shapeOf value) >>= _) = _ at set
          by_contra differs
          have refused : state.claim layer (dottedBelow above key) (shapeOf value) = .error
              ⟨dottedBelow above key, first.1.label, first.2, layer.label, shapeOf value⟩ := by
            unfold Overlaying.claim
            change state.shapes (dottedBelow above key) = some first at held
            rw [held]
            exact if_pos differs
          rw [refused] at set
          cases set
      | cons next rest =>
          change (state.slot layer (dottedBelow above key) key >>= _) = _ at set
          cases slot : state.slot layer (dottedBelow above key) key with
          | error conflict =>
              rw [slot] at set
              cases set
          | ok existing =>
              rw [slot] at set
              change (setPath layer (dottedBelow above key) (next :: rest) value
                { state with into := existing } >>= _) = _ at set
              cases made : setPath layer (dottedBelow above key) (next :: rest) value
                  { state with into := existing } with
              | error conflict =>
                  rw [made] at set
                  cases set
              | ok below =>
                  have inner := ih (List.cons_ne_nil _ _) made
                  exact inner

/-! ## Making settings in turn -/

/-- A setting, and the layer that makes it. -/
abbrev LayerSetting := SourceLayer × Setting

/-- The dotted name a setting is made under. -/
def LayerSetting.name (setting : LayerSetting) : String := dotted setting.2.1

/-- The shape a setting gives its key path. -/
def LayerSetting.shape (setting : LayerSetting) : String := shapeOf setting.2.2

/-- The last setting of a key path. -/
def lastAt (done : List LayerSetting) (path : List String) : Option LayerSetting :=
  done.reverse.find? fun setting => setting.2.1 = path

/-- The last leaf set under a dotted name. -/
def lastNamed (done : List LayerSetting) (name : String) : Option LayerSetting :=
  done.reverse.find? fun setting => setting.name = name ∧ setting.shape ≠ "table"

/-- What the merge has after some settings. -/
structure Written (done : List LayerSetting) (state : Overlaying) : Prop where
  shapes : ∀ name, state.shapes name =
    (done.find? fun setting => setting.name = name).map fun setting => (setting.1, setting.shape)
  attribution : ∀ name, state.attribution name =
    (lastNamed done name).map fun setting => ⟨setting.1, presenceOf setting.2.2⟩
  looks : ∀ path, path ≠ [] → look path state.into =
    (lastAt done path).map fun setting => .of setting.2.2

/-- Settings agree on the shape under each dotted name. -/
def Agreed (done : List LayerSetting) : Prop :=
  ∀ first ∈ done, ∀ second ∈ done, first.name = second.name → first.shape = second.shape

/-- Each key path is set after a table at each path above it. -/
def Rooted (done : List LayerSetting) : Prop :=
  ∀ earlier setting later, done = earlier ++ setting :: later →
    ∀ above, above ≠ [] → above <+: setting.2.1 → above ≠ setting.2.1 →
      ∃ root ∈ earlier, root.2.1 = above ∧ root.shape = "table"

theorem lastAt_append (done : List LayerSetting) (setting : LayerSetting) (path : List String) :
    lastAt (done ++ [setting]) path =
      if setting.2.1 = path then some setting else lastAt done path := by
  unfold lastAt
  rw [List.reverse_append, List.reverse_singleton, List.singleton_append, List.find?_cons]
  by_cases here : setting.2.1 = path <;> simp [here]

theorem lastNamed_append (done : List LayerSetting) (setting : LayerSetting) (name : String) :
    lastNamed (done ++ [setting]) name =
      if setting.name = name ∧ setting.shape ≠ "table" then some setting
      else lastNamed done name := by
  unfold lastNamed
  rw [List.reverse_append, List.reverse_singleton, List.singleton_append, List.find?_cons]
  by_cases here : setting.name = name ∧ setting.shape ≠ "table"
  · rw [if_pos here, decide_eq_true here]
  · rw [if_neg here, decide_eq_false here]

theorem lastAt_some {done : List LayerSetting} {path : List String} {setting : LayerSetting}
    (found : lastAt done path = some setting) : setting ∈ done ∧ setting.2.1 = path := by
  refine ⟨List.mem_reverse.mp (List.mem_of_find?_eq_some found), ?_⟩
  simpa using List.find?_some found

theorem lastAt_isSome {done : List LayerSetting} {setting : LayerSetting}
    (member : setting ∈ done) : ∃ last, lastAt done setting.2.1 = some last := by
  refine Option.isSome_iff_exists.mp (List.find?_isSome.mpr ⟨setting, ?_, ?_⟩)
  · exact List.mem_reverse.mpr member
  · simp

theorem Agreed.of_append {done later : List LayerSetting} (agreed : Agreed (done ++ later)) :
    Agreed done := fun first left second right =>
  agreed first (List.mem_append_left _ left) second (List.mem_append_left _ right)

theorem Rooted.of_append {done later : List LayerSetting} (rooted : Rooted (done ++ later)) :
    Rooted done := by
  rintro earlier setting rest rfl
  refine rooted earlier setting (rest ++ later) ?_
  rw [List.append_assoc, List.cons_append]

/-- Settings at one path have one shape. -/
theorem Agreed.same_path {done : List LayerSetting} (agreed : Agreed done)
    {first second : LayerSetting} (left : first ∈ done) (right : second ∈ done)
    (path : first.2.1 = second.2.1) : first.shape = second.shape :=
  agreed first left second right (congrArg dotted path)

/-- One more setting. -/
theorem Written.put {done : List LayerSetting} {state : Overlaying} (written : Written done state)
    {setting : LayerSetting} (nonempty : setting.2.1 ≠ [])
    (agreed : Agreed (done ++ [setting])) (rooted : Rooted (done ++ [setting])) :
    ∃ after, setPath setting.1 "" setting.2.1 setting.2.2 state = .ok after ∧
      Written (done ++ [setting]) after := by
  have last : setting ∈ done ++ [setting] :=
    List.mem_append_right _ (List.mem_singleton_self setting)
  -- what is set above the path is a table
  have tables : ∀ above, above ≠ [] → above <+: setting.2.1 → above ≠ setting.2.1 →
      ∃ root, lastAt done above = some root ∧ root.shape = "table" := by
    intro above deep within proper
    obtain ⟨root, member, rfl, shape⟩ := rooted done setting [] rfl above deep within proper
    obtain ⟨latest, found⟩ := lastAt_isSome member
    obtain ⟨held, path⟩ := lastAt_some found
    refine ⟨latest, found, ?_⟩
    rw [← shape]
    exact agreed.of_append.same_path held member path
  have clear : Clear setting.2.1 setting.2.2 state.into := by
    intro other within whole leaf found
    by_cases top : other = []
    · subst top
      cases found
    rw [written.looks other top] at found
    by_cases same : other = setting.2.1
    · obtain ⟨held, there, node⟩ := Option.map_eq_some_iff.mp found
      obtain ⟨member, path⟩ := lastAt_some there
      have shape := agreed.same_path (List.mem_append_left _ member) last (path.trans same)
      rw [Node.of_table (shape.trans (whole same))] at node
      cases node
    · obtain ⟨root, there, shape⟩ := tables other top within same
      rw [there, Option.map_some, Node.of_table shape] at found
      cases found
  have fits : ∀ first, state.shapes setting.name = some first → first.2 = setting.shape := by
    intro first held
    rw [written.shapes] at held
    obtain ⟨earlier, found, rfl⟩ := Option.map_eq_some_iff.mp held
    have name : earlier.name = setting.name := by simpa using List.find?_some found
    exact agreed earlier (List.mem_append_left _ (List.mem_of_find?_eq_some found)) setting last
      name
  have made : ∃ after, setPath setting.1 "" setting.2.1 setting.2.2 state = .ok after ∧
      Sets setting.1 setting.name setting.2.1 setting.2.2 state after :=
    setPath_ok setting.1 setting.2.2 setting.2.1 nonempty "" state clear fits
  obtain ⟨after, set, looks, attribution, shapes⟩ := made
  refine ⟨after, set, ?_, ?_, ?_⟩
  · intro name
    rw [shapes, List.find?_append, Option.map_or, ← written.shapes name, List.find?_singleton]
    by_cases here : setting.name = name
    · subst here
      rw [if_pos (decide_eq_true rfl)]
      cases held : state.shapes setting.name with
      | none =>
          rw [if_neg (by simp), Function.update_self]
          rfl
      | some first =>
          rw [if_pos (Option.isSome_some), held]
          rfl
    · have other : ¬ decide (setting.name = name) = true := by simpa using here
      rw [if_neg other, Option.map_none, Option.or_none]
      split
      · rfl
      · exact Function.update_of_ne (Ne.symm here) _ _
  · intro name
    rw [attribution, lastNamed_append]
    by_cases shape : shapeOf setting.2.2 = "table"
    · rw [if_pos shape, if_neg fun both => both.2 shape]
      exact written.attribution name
    · rw [if_neg shape, Function.update_apply]
      by_cases here : name = setting.name
      · rw [if_pos here, if_pos ⟨here.symm, shape⟩]
        rfl
      · rw [if_neg here, if_neg fun both => here both.1.symm]
        exact written.attribution name
  · intro other deep
    rw [looks, lastAt_append]
    unfold lookAfter
    by_cases same : other = setting.2.1
    · rw [if_pos same, if_pos same.symm]
      rfl
    rw [if_neg same, if_neg (Ne.symm same)]
    by_cases within : other <+: setting.2.1
    · obtain ⟨root, there, shape⟩ := tables other deep within same
      rw [if_pos within, there, Option.map_some, Node.of_table shape]
    rw [if_neg within]
    by_cases below : setting.2.1 <+: other ∧ shapeOf setting.2.2 ≠ "table"
    · -- a leaf has nothing below it
      rw [if_pos below]
      cases found : lastAt done other with
      | none => rfl
      | some held =>
          obtain ⟨member, rfl⟩ := lastAt_some found
          obtain ⟨earlier, later, rfl⟩ := List.append_of_mem member
          obtain ⟨root, above, path, shape⟩ := rooted.of_append earlier held later rfl
            setting.2.1 nonempty below.1 (Ne.symm same)
          have table := agreed.same_path (List.mem_append_left _ (List.mem_append_left _ above))
            last path
          exact (below.2 (table.symm.trans shape)).elim
    · rw [if_neg below]
      exact written.looks other deep

/-- Makes settings in turn. -/
def makeSettings (all : List LayerSetting) (state : Overlaying) :
    Except ConfigurationConflict Overlaying :=
  all.foldlM (fun state setting => setPath setting.1 "" setting.2.1 setting.2.2 state) state

theorem makeSettings_append (done : List LayerSetting) (setting : LayerSetting)
    (state : Overlaying) : makeSettings (done ++ [setting]) state =
      (makeSettings done state >>= setPath setting.1 "" setting.2.1 setting.2.2) := by
  unfold makeSettings
  rw [List.foldlM_append]
  congr 1
  funext reached
  exact bind_pure _

/-- Nothing merged yet. -/
def Overlaying.empty : Overlaying := ⟨[], fun _ => none, fun _ => none⟩

theorem Written.empty : Written [] .empty :=
  ⟨fun _ => rfl, fun _ => rfl, fun path nonempty => look_nil_table path nonempty⟩

/-- Settings that agree can all be made. -/
theorem makeSettings_ok {all : List LayerSetting} (nonempty : ∀ setting ∈ all, setting.2.1 ≠ [])
    (rooted : Rooted all) (agreed : Agreed all) :
    ∃ after, makeSettings all .empty = .ok after ∧ Written all after := by
  induction all using List.reverseRecOn with
  | nil => exact ⟨.empty, rfl, .empty⟩
  | append_singleton done setting ih =>
      obtain ⟨reached, made, written⟩ := ih
        (fun setting member => nonempty setting (List.mem_append_left _ member))
        rooted.of_append agreed.of_append
      obtain ⟨after, set, now⟩ := written.put
        (nonempty setting (List.mem_append_right _ (List.mem_singleton_self setting))) agreed rooted
      refine ⟨after, ?_, now⟩
      rw [makeSettings_append, made]
      exact set

theorem Agreed.append {done : List LayerSetting} {setting : LayerSetting} (agreed : Agreed done)
    (fits : ∀ first ∈ done, first.name = setting.name → first.shape = setting.shape) :
    Agreed (done ++ [setting]) := by
  intro first left second right name
  obtain before | here := List.mem_append.mp left
  · obtain earlier | last := List.mem_append.mp right
    · exact agreed first before second earlier name
    · obtain rfl := List.mem_singleton.mp last
      exact fits first before name
  · obtain rfl := List.mem_singleton.mp here
    obtain earlier | last := List.mem_append.mp right
    · exact (fits second earlier name.symm).symm
    · rw [List.mem_singleton.mp last]

/-- Only settings that agree can all be made. -/
theorem agreed_of_makeSettings {all : List LayerSetting}
    (nonempty : ∀ setting ∈ all, setting.2.1 ≠ []) (rooted : Rooted all) {after : Overlaying}
    (made : makeSettings all .empty = .ok after) : Agreed all := by
  induction all using List.reverseRecOn generalizing after with
  | nil => exact fun first member => (List.not_mem_nil member).elim
  | append_singleton done setting ih =>
      rw [makeSettings_append] at made
      cases before : makeSettings done .empty with
      | error conflict =>
          rw [before] at made
          cases made
      | ok reached =>
          rw [before] at made
          have earlier : ∀ setting ∈ done, setting.2.1 ≠ [] := fun setting member =>
            nonempty setting (List.mem_append_left _ member)
          have agreed := ih earlier rooted.of_append before
          obtain ⟨state, same, written⟩ := makeSettings_ok earlier rooted.of_append agreed
          cases before.symm.trans same
          have fits := setPath_fits
            (nonempty setting (List.mem_append_right _ (List.mem_singleton_self setting))) made
          refine agreed.append fun first member name => ?_
          have found : (done.find? fun held => held.name = setting.name).isSome :=
            List.find?_isSome.mpr ⟨first, member, decide_eq_true name⟩
          obtain ⟨held, there⟩ := Option.isSome_iff_exists.mp found
          have shape := fits (held.1, held.shape) (by
            show reached.shapes setting.name = _
            rw [written.shapes, there, Option.map_some])
          have named : held.name = setting.name := by simpa using List.find?_some there
          rw [← show held.shape = setting.shape from shape]
          exact agreed first member held (List.mem_of_find?_eq_some there) (name.trans named.symm)

end Renvor
