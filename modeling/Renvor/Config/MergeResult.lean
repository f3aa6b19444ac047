import Mathlib.Data.List.Find
import Renvor.Config.MergeLaws

/-! # What a merge resolves

The value at a key path is that of the last layer that sets it, and each leaf is
attributed to that layer (`Renvor.merge_layers`).
-/

namespace Renvor

/-! ## What a layer sets -/

/-- The settings of a table are those of its entries, one after the other. -/
theorem settings_eq_flatMap (table : TomlTable) : settings table = table.flatMap settingsOf := by
  induction table with
  | nil => rfl
  | cons entry rest ih =>
      unfold settings
      rw [ih, List.flatMap_cons]

/-- A setting of a table is an entry of it, or a setting of a table that an entry holds. -/
theorem mem_settings {setting : Setting} {table : TomlTable} :
    setting ∈ settings table ↔ ∃ key value, (key, value) ∈ table ∧
      (setting = ([key], value) ∨ ∃ inner, value = .table inner ∧
        ∃ below ∈ settings inner, setting = (key :: below.1, below.2)) := by
  rw [settings_eq_flatMap, List.mem_flatMap]
  constructor
  · rintro ⟨⟨key, value⟩, member, sets⟩
    unfold settingsOf at sets
    refine ⟨key, value, member, (List.mem_cons.mp sets).imp id fun below => ?_⟩
    obtain ⟨deeper, found, rfl⟩ := List.mem_map.mp below
    cases value with
    | table inner => exact ⟨inner, rfl, deeper, found, rfl⟩
    | string | integer | float | boolean | datetime | array => cases found
  · rintro ⟨key, value, member, sets⟩
    refine ⟨(key, value), member, ?_⟩
    unfold settingsOf
    obtain rfl | ⟨inner, rfl, below, found, rfl⟩ := sets
    · exact List.mem_cons_self ..
    · exact List.mem_cons_of_mem _ (List.mem_map.mpr ⟨below, found, rfl⟩)

/-- A table with each key once has each entry under its key. -/
theorem TomlTable.Keyed.lookup {table : TomlTable} (keyed : table.Keyed) {key : String}
    {value : TomlValue} (member : (key, value) ∈ table) :
    table.lookup key = some value ∧ value.Keyed := by
  induction table with
  | nil => cases member
  | cons entry rest ih =>
      obtain ⟨first, held⟩ := entry
      unfold TomlTable.Keyed at keyed
      obtain ⟨here, absent, later⟩ := keyed
      obtain same | member := List.mem_cons.mp member
      · cases same
        exact ⟨List.lookup_cons_self, here⟩
      · obtain ⟨found, inner⟩ := ih later member
        refine ⟨?_, inner⟩
        rw [List.lookup_cons]
        by_cases same : key = first
        · subst same
          rw [absent] at found
          cases found
        · rw [beq_eq_false_iff_ne.mpr same]
          exact found

/-- What a table sets at a path is found by looking there, where its keys are distinct. -/
theorem look_of_settings {path : List String} {value : TomlValue} {table : TomlTable}
    (keyed : table.Keyed) (sets : (path, value) ∈ settings table) :
    look path table = some (.of value) := by
  induction path generalizing table with
  | nil => exact (settings_ne_nil table _ sets rfl).elim
  | cons key rest ih =>
      obtain ⟨first, held, member, here⟩ := mem_settings.mp sets
      obtain ⟨found, inner⟩ := keyed.lookup member
      obtain same | ⟨below, rfl, ⟨deeper, value⟩, within, same⟩ := here
      · cases same
        rw [look_cons, found]
        cases value <;> rfl
      · cases same
        rw [look_cons, found]
        exact ih inner within

/-- What is found under a key is one of the entries. -/
theorem mem_of_lookup {key : String} {value : TomlValue} {table : TomlTable}
    (found : table.lookup key = some value) : (key, value) ∈ table := by
  obtain ⟨before, after, rfl, -⟩ := List.lookup_eq_some_iff.mp found
  exact List.mem_append_right _ (List.mem_cons_self ..)

/-- What is found at a path is set there. -/
theorem settings_of_look {path : List String} {node : Node} {table : TomlTable}
    (nonempty : path ≠ []) (found : look path table = some node) :
    ∃ value, (path, value) ∈ settings table ∧ .of value = node := by
  induction path generalizing table with
  | nil => exact (nonempty rfl).elim
  | cons key rest ih =>
      rw [look_cons] at found
      obtain ⟨value, there, inside⟩ := Option.bind_eq_some_iff.mp found
      have member : (key, value) ∈ table := mem_of_lookup there
      cases rest with
      | nil =>
          refine ⟨value, mem_settings.mpr ⟨key, value, member, .inl rfl⟩, ?_⟩
          cases value <;> exact Option.some.inj inside
      | cons next rest =>
          cases value with
          | table inner =>
              obtain ⟨value, sets, same⟩ := ih (List.cons_ne_nil _ _) inside
              exact ⟨value, mem_settings.mpr ⟨key, _, member, .inr ⟨inner, rfl, _, sets, rfl⟩⟩, same⟩
          | string | integer | float | boolean | datetime | array => cases inside

/-! ## A table before what is in it -/

/-- Rooted settings stay rooted where others are rooted behind them. -/
theorem Rooted.append {done later : List LayerSetting} (first : Rooted done)
    (second : Rooted later) : Rooted (done ++ later) := by
  intro earlier setting rest split above deep within proper
  obtain ⟨more, rfl, tail⟩ | ⟨more, rfl, tail⟩ := List.append_eq_append_iff.mp split
  · obtain ⟨root, member, is⟩ := second more setting rest tail above deep within proper
    exact ⟨root, List.mem_append_right _ member, is⟩
  · cases more with
    | nil =>
        obtain ⟨root, member, -⟩ := second [] setting rest tail.symm above deep within proper
        cases member
    | cons here more =>
        cases tail
        exact first earlier setting more rfl above deep within proper

/-- What is set in a table is set after it. -/
theorem Rooted.below {layer : SourceLayer} {key : String} {value : TomlValue}
    (table : settingsBelow value ≠ [] → shapeOf value = "table")
    (rooted : Rooted ((settingsBelow value).map fun setting => (layer, setting))) :
    Rooted ((settingsOf (key, value)).map fun setting => (layer, setting)) := by
  intro earlier setting rest split above deep within proper
  unfold settingsOf at split
  rw [List.map_cons, List.map_map] at split
  cases earlier with
  | nil =>
      cases split
      obtain ⟨first, more, rfl⟩ := List.exists_cons_of_ne_nil deep
      obtain ⟨rfl, rfl⟩ := prefix_singleton.mp within
      exact (proper rfl).elim
  | cons root earlier =>
      obtain ⟨rfl, inside⟩ := List.cons.inj split
      obtain ⟨before, found, made, rfl, same⟩ := List.map_eq_append_iff.mp inside
      obtain ⟨there, after, rfl, rfl, -⟩ := List.map_eq_cons_iff.mp same
      obtain ⟨first, more, rfl⟩ := List.exists_cons_of_ne_nil deep
      obtain ⟨rfl, inner⟩ := List.cons_prefix_cons.mp within
      by_cases top : more = []
      · subst top
        refine ⟨_, List.mem_cons_self .., rfl, table ?_⟩
        rw [made]
        simp
      · have split : (settingsBelow value).map (fun setting => (layer, setting)) =
            before.map (fun setting => (layer, setting)) ++ (layer, there) ::
              after.map fun setting => (layer, setting) := by
          rw [made, List.map_append, List.map_cons]
        obtain ⟨root, member, path, shape⟩ := rooted _ _ _ split more top inner
          fun same => proper (congrArg (first :: ·) same)
        obtain ⟨held, kept, rfl⟩ := List.mem_map.mp member
        refine ⟨_, List.mem_cons_of_mem _ (List.mem_map.mpr ⟨held, kept, rfl⟩), ?_, shape⟩
        exact congrArg (first :: ·) path

mutual

/-- The settings of a table are rooted: a table is set before what stands in it. -/
theorem settings_rooted (layer : SourceLayer) : ∀ table : TomlTable,
    Rooted ((settings table).map fun setting => (layer, setting))
  | [] => fun earlier setting rest split => by
      cases earlier <;> cases split
  | entry :: rest => by
      unfold settings
      rw [List.map_append]
      exact (settingsOf_rooted layer entry).append (settings_rooted layer rest)

/-- The settings of an entry are rooted. -/
theorem settingsOf_rooted (layer : SourceLayer) : ∀ entry : String × TomlValue,
    Rooted ((settingsOf entry).map fun setting => (layer, setting))
  | (_, value) => (settingsBelow_rooted layer value).2.below (settingsBelow_rooted layer value).1

/-- What is set below a value is rooted, and only a table has something below it. -/
theorem settingsBelow_rooted (layer : SourceLayer) : ∀ value : TomlValue,
    (settingsBelow value ≠ [] → shapeOf value = "table") ∧
      Rooted ((settingsBelow value).map fun setting => (layer, setting))
  | .table inner => ⟨fun _ => rfl, settings_rooted layer inner⟩
  | .string _ | .integer _ | .float _ | .boolean _ | .datetime _ | .array _ =>
      ⟨fun some => (some rfl).elim, fun earlier setting rest split => by
        cases earlier <;> cases split⟩

end

/-! ## Layers -/

/-- What layers set, in order. -/
def layerSettings (layers : List DecodedLayer) : List LayerSetting :=
  layers.flatMap fun layer => (settings layer.table).map fun setting => (layer.layer, setting)

/-- The last layer that sets a key path, and what it sets it to. -/
def lastSetting (layers : List DecodedLayer) (path : List String) : Option (SourceLayer × Node) :=
  layers.reverse.findSome? fun layer => (look path layer.table).map fun node => (layer.layer, node)

/-- Layers give each key path one shape. -/
def ShapesAgree (layers : List DecodedLayer) : Prop :=
  ∀ first ∈ layers, ∀ second ∈ layers, ∀ path one other,
    look path first.table = some one → look path second.table = some other →
      one.shape = other.shape

/-- The dotted names tell the key paths that layers set apart. -/
def Unambiguous (layers : List DecodedLayer) : Prop :=
  ∀ first ∈ layerSettings layers, ∀ second ∈ layerSettings layers, first.name = second.name →
    first.2.1 = second.2.1

/-- A setting of the layers is a setting of one of them, under the name of that layer. -/
theorem mem_layerSettings {layers : List DecodedLayer} {setting : LayerSetting} :
    setting ∈ layerSettings layers ↔ ∃ layer ∈ layers, setting.1 = layer.layer ∧
      setting.2 ∈ settings layer.table := by
  unfold layerSettings
  rw [List.mem_flatMap]
  refine exists_congr fun layer => and_congr_right fun _ => ?_
  rw [List.mem_map]
  constructor
  · rintro ⟨held, member, rfl⟩
    exact ⟨rfl, member⟩
  · rintro ⟨same, member⟩
    exact ⟨setting.2, member, by rw [← same]⟩

/-- No setting of the layers is at the empty path. -/
theorem layerSettings_ne_nil (layers : List DecodedLayer) :
    ∀ setting ∈ layerSettings layers, setting.2.1 ≠ [] := by
  intro setting member
  obtain ⟨layer, -, -, sets⟩ := mem_layerSettings.mp member
  exact settings_ne_nil layer.table setting.2 sets

/-- The settings of all layers are rooted, layer after layer. -/
theorem layerSettings_rooted (layers : List DecodedLayer) : Rooted (layerSettings layers) := by
  induction layers with
  | nil =>
      intro earlier setting rest split
      cases earlier <;> cases split
  | cons layer layers ih =>
      unfold layerSettings
      rw [List.flatMap_cons]
      exact (settings_rooted layer.layer layer.table).append ih

/-- Merging layers is making their settings one after the other, from an empty table. -/
theorem mergeLayers_eq (layers : List DecodedLayer) : mergeLayers layers =
    (makeSettings (layerSettings layers) .empty).map fun merged =>
      ⟨merged.into, merged.attribution⟩ := by
  have each : ∀ (state : Overlaying), layers.foldlM
      (fun state layer => overlay layer.layer "" layer.table state) state =
        makeSettings (layerSettings layers) state := by
    induction layers with
    | nil => exact fun _ => rfl
    | cons layer layers ih =>
        intro state
        unfold makeSettings layerSettings at ih ⊢
        rw [List.foldlM_cons, List.flatMap_cons, List.foldlM_append, List.foldlM_map,
          overlay_eq_foldlM]
        congr 1
        funext reached
        exact ih reached
  unfold mergeLayers
  rw [each]
  show (makeSettings (layerSettings layers) .empty >>= _) = _
  cases makeSettings (layerSettings layers) .empty <;> rfl

/-- What one layer sets at a path, as a setting. -/
theorem lastAt_layer (layer : DecodedLayer) {path : List String} (nonempty : path ≠ []) :
    (lastAt ((settings layer.table).map fun setting => (layer.layer, setting)) path).map
        (fun setting => (setting.1, Node.of setting.2.2)) =
      (look path layer.table).map fun node => (layer.layer, node) := by
  cases found : lastAt ((settings layer.table).map fun setting => (layer.layer, setting)) path with
  | some setting =>
      obtain ⟨member, rfl⟩ := lastAt_some found
      obtain ⟨held, sets, rfl⟩ := List.mem_map.mp member
      rw [look_of_settings layer.keyed sets]
      rfl
  | none =>
      cases there : look path layer.table with
      | none => rfl
      | some node =>
          obtain ⟨value, sets, -⟩ := settings_of_look nonempty there
          obtain ⟨last, found'⟩ := lastAt_isSome (List.mem_map.mpr ⟨_, sets, rfl⟩)
          rw [found] at found'
          cases found'

/-- The last setting at a path is that of the last layer that sets it. -/
theorem lastAt_layers (layers : List DecodedLayer) {path : List String} (nonempty : path ≠ []) :
    (lastAt (layerSettings layers) path).map (fun setting => (setting.1, Node.of setting.2.2)) =
      lastSetting layers path := by
  induction layers using List.reverseRecOn with
  | nil => rfl
  | append_singleton layers layer ih =>
      have here := lastAt_layer layer nonempty
      unfold lastSetting lastAt layerSettings at *
      rw [List.flatMap_append, List.flatMap_singleton, List.reverse_append, List.find?_append,
        Option.map_or, here, ih, List.reverse_append, List.reverse_singleton,
        List.findSome?_append]
      congr 1
      rw [List.findSome?_cons]
      cases look path layer.table <;> rfl

/-- Merging succeeds only where the shapes agree, and then everything set was written. -/
theorem mergeLayers_ok {layers : List DecodedLayer} {merged : Merged}
    (made : mergeLayers layers = .ok merged) :
    Written (layerSettings layers) ⟨merged.table, merged.attribution, fun name =>
      ((layerSettings layers).find? fun setting => setting.name = name).map fun setting =>
        (setting.1, setting.shape)⟩ ∧ Agreed (layerSettings layers) := by
  rw [mergeLayers_eq] at made
  cases reached : makeSettings (layerSettings layers) .empty with
  | error conflict =>
      rw [reached] at made
      cases made
  | ok state =>
      rw [reached] at made
      cases made
      have agreed := agreed_of_makeSettings (layerSettings_ne_nil layers)
        (layerSettings_rooted layers) reached
      obtain ⟨same, found, written⟩ := makeSettings_ok (layerSettings_ne_nil layers)
        (layerSettings_rooted layers) agreed
      cases reached.symm.trans found
      exact ⟨⟨fun _ => rfl, written.attribution, written.looks⟩, agreed⟩

/-- Where names tell paths apart, settings agree exactly when layers do. -/
theorem agreed_iff {layers : List DecodedLayer} (unambiguous : Unambiguous layers) :
    Agreed (layerSettings layers) ↔ ShapesAgree layers := by
  constructor
  · intro agreed first left second right path one other here there
    by_cases top : path = []
    · subst top
      cases here
      cases there
      rfl
    obtain ⟨value, sets, rfl⟩ := settings_of_look top here
    obtain ⟨later, too, rfl⟩ := settings_of_look top there
    rw [Node.shape_of, Node.shape_of]
    exact agreed (first.layer, path, value) (mem_layerSettings.mpr ⟨first, left, rfl, sets⟩)
      (second.layer, path, later) (mem_layerSettings.mpr ⟨second, right, rfl, too⟩) rfl
  · intro agree first left second right name
    have path := unambiguous first left second right name
    obtain ⟨one, member, -, sets⟩ := mem_layerSettings.mp left
    obtain ⟨other, member', -, sets'⟩ := mem_layerSettings.mp right
    have shapes := agree one member other member' first.2.1 _ _
      (look_of_settings one.keyed sets) (path ▸ look_of_settings other.keyed sets')
    rwa [Node.shape_of, Node.shape_of] at shapes

/-- A value is a leaf only where it is no table. -/
theorem Node.leaf_of {value leaf : TomlValue} (same : Node.of value = .leaf leaf) :
    value = leaf ∧ shapeOf value ≠ "table" := by
  cases value <;> cases same <;> exact ⟨rfl, by simp [shapeOf]⟩

/-- A leaf that was merged was the last setting of its path. -/
theorem leaf_set {layers : List DecodedLayer} {merged : Merged}
    (made : mergeLayers layers = .ok merged) {path : List String} {leaf : TomlValue}
    (found : look path merged.table = some (.leaf leaf)) :
    ∃ layer, lastAt (layerSettings layers) path = some (layer, path, leaf) ∧
      lastSetting layers path = some (layer, .leaf leaf) ∧ shapeOf leaf ≠ "table" := by
  have top : path ≠ [] := by
    rintro rfl
    cases found
  have last := lastAt_layers layers top
  rw [(mergeLayers_ok made).1.looks path top] at found
  obtain ⟨⟨layer, _, value⟩, held, node⟩ := Option.map_eq_some_iff.mp found
  obtain ⟨-, rfl⟩ := lastAt_some held
  obtain ⟨rfl, shape⟩ := Node.leaf_of node
  refine ⟨layer, held, ?_, shape⟩
  rw [← last, held, Option.map_some, Node.of_leaf shape]

/-- Where names tell paths apart, a leaf's last setting is the last under its name. -/
theorem lastNamed_dotted {layers : List DecodedLayer} (unambiguous : Unambiguous layers)
    (agreed : Agreed (layerSettings layers)) {setting : LayerSetting}
    (last : lastAt (layerSettings layers) setting.2.1 = some setting)
    (shape : setting.shape ≠ "table") :
    lastNamed (layerSettings layers) setting.name = some setting := by
  obtain ⟨member, -⟩ := lastAt_some last
  rw [← last]
  refine List.find?_congr fun other among => ?_
  have held := List.mem_reverse.mp among
  refine decide_eq_decide.mpr ⟨fun named => unambiguous other held setting member named.1,
    fun path => ⟨congrArg dotted path, ?_⟩⟩
  rw [agreed.same_path held member path]
  exact shape

/-- **A merge has the last setting of each key path.** Where dotted names tell
the key paths apart, layers merge exactly when they give each key path one shape,
and each leaf, and nothing else, is attributed, to the last layer that set it. -/
theorem merge_layers (layers : List DecodedLayer) :
    (∀ merged, mergeLayers layers = .ok merged → ∀ path, path ≠ [] →
      look path merged.table = (lastSetting layers path).map Prod.snd) ∧
    (Unambiguous layers →
      ((∃ merged, mergeLayers layers = .ok merged) ↔ ShapesAgree layers) ∧
      ∀ merged, mergeLayers layers = .ok merged →
        (∀ path leaf, look path merged.table = some (.leaf leaf) →
          ∃ layer, lastSetting layers path = some (layer, .leaf leaf) ∧
            merged.attribution (dotted path) = some ⟨layer, presenceOf leaf⟩) ∧
        (∀ name, (merged.attribution name).isSome →
          ∃ path leaf, look path merged.table = some (.leaf leaf) ∧ dotted path = name) ∧
        ∀ path other leaf leaf', look path merged.table = some (.leaf leaf) →
          look other merged.table = some (.leaf leaf') → dotted path = dotted other →
            path = other) := by
  refine ⟨fun merged made path top => ?_, fun unambiguous => ⟨?_, fun merged made => ?_⟩⟩
  · rw [(mergeLayers_ok made).1.looks path top, ← lastAt_layers layers top, Option.map_map]
    rfl
  · rw [← agreed_iff unambiguous]
    constructor
    · rintro ⟨merged, made⟩
      exact (mergeLayers_ok made).2
    · intro agreed
      obtain ⟨state, reached, -⟩ := makeSettings_ok (layerSettings_ne_nil layers)
        (layerSettings_rooted layers) agreed
      refine ⟨⟨state.into, state.attribution⟩, ?_⟩
      rw [mergeLayers_eq, reached]
      rfl
  obtain ⟨written, agreed⟩ := mergeLayers_ok made
  refine ⟨fun path leaf found => ?_, fun name attributed => ?_,
    fun path other leaf leaf' here there name => ?_⟩
  · obtain ⟨layer, last, setting, shape⟩ := leaf_set made found
    refine ⟨layer, setting, ?_⟩
    have attribution := written.attribution (dotted path)
    have named := lastNamed_dotted unambiguous agreed
      (show lastAt (layerSettings layers) (layer, path, leaf).2.1 = some (layer, path, leaf) from
        last) shape
    exact attribution.trans (congrArg (Option.map _) named)
  · have attribution := written.attribution name
    change merged.attribution name = _ at attribution
    rw [attribution, Option.isSome_map] at attributed
    obtain ⟨setting, found⟩ := Option.isSome_iff_exists.mp attributed
    have named : setting.name = name ∧ setting.shape ≠ "table" := by
      simpa using List.find?_some found
    have member := List.mem_reverse.mp (List.mem_of_find?_eq_some found)
    obtain ⟨last, there⟩ := lastAt_isSome member
    obtain ⟨held, path⟩ := lastAt_some there
    have shape := agreed.same_path held member path
    refine ⟨setting.2.1, last.2.2, ?_, named.1⟩
    refine (written.looks _ (layerSettings_ne_nil layers setting member)).trans ?_
    rw [there, Option.map_some, Node.of_leaf fun table => named.2 (shape.symm.trans table)]
  · obtain ⟨layer, last, -⟩ := leaf_set made here
    obtain ⟨later, last', -⟩ := leaf_set made there
    exact unambiguous _ (lastAt_some last).1 _ (lastAt_some last').1 name

/-- A server's defaults, and its port from the environment. -/
def serverDefaults : DecodedLayer :=
  ⟨.defaults, [("server", .table [("host", .string ""), ("port", .integer 80)])],
    by simp [TomlTable.Keyed, KeyedEntry, TomlValue.Keyed]⟩

/-- A layer that sets the port below the server. -/
def serverPort : DecodedLayer :=
  ⟨.environment, [("server", .table [("port", .integer 81)])],
    by simp [TomlTable.Keyed, KeyedEntry, TomlValue.Keyed]⟩

theorem merge_layers_server : ∃ merged, mergeLayers [serverDefaults, serverPort] = .ok merged ∧
    merged.attribution "server.port" = some ⟨.environment, .present⟩ := by
  have resolved := (merge_layers [serverDefaults, serverPort]).2 (by
    unfold Unambiguous
    decide +kernel)
  refine ⟨_, rfl, ?_⟩
  obtain ⟨layer, last, attribution⟩ := (resolved.2 _ rfl).1 ["server", "port"] (.integer 81) rfl
  cases last
  exact attribution

/-- A port as text, then as a number. -/
def portAsText : DecodedLayer := ⟨.defaults, [("port", .string "80")], trivial, rfl, trivial⟩

/-- A layer that sets as a number what another sets as a string. -/
def portAsNumber : DecodedLayer := ⟨.environment, [("port", .integer 80)], trivial, rfl, trivial⟩

/-- Layers that give no key a table and something else do not merge. -/
theorem merge_refuses_scalars :
    ¬ ((∃ merged, mergeLayers [portAsText, portAsNumber] = .ok merged) ↔
      ∀ path one other, look path portAsText.table = some one →
        look path portAsNumber.table = some other → (one = .table ↔ other = .table)) := by
  have refused : mergeLayers [portAsText, portAsNumber] =
      .error ⟨"port", "defaults", "string", "environment", "number"⟩ := by
    rfl
  intro merges
  obtain ⟨merged, made⟩ := merges.mpr fun path one other here there => by
    cases path with
    | nil =>
        cases here
        cases there
        rfl
    | cons key rest =>
        obtain ⟨value, sets, rfl⟩ := settings_of_look (List.cons_ne_nil _ _) here
        obtain ⟨later, too, rfl⟩ := settings_of_look (List.cons_ne_nil _ _) there
        cases List.mem_singleton.mp sets
        cases List.mem_singleton.mp too
        exact ⟨fun table => (by cases table), fun table => (by cases table)⟩
  rw [refused] at made
  cases made

end Renvor
