import Renvor.Config.Merge

/-! # A layer as the settings it makes

A layer sets its key paths one by one, each table before what is in it. To
overlay a layer is to make its settings in turn
(`Renvor.overlay_eq_foldlM`).
-/

namespace Renvor

/-- A key path and the value a layer sets it to. -/
abbrev Setting := List String × TomlValue

mutual

/-- What a table sets, in order. -/
def settings : TomlTable → List Setting
  | [] => []
  | entry :: rest => settingsOf entry ++ settings rest

def settingsOf : String × TomlValue → List Setting
  | (key, value) => ([key], value) :: (settingsBelow value).map fun setting =>
      (key :: setting.1, setting.2)

def settingsBelow : TomlValue → List Setting
  | .table inner => settings inner
  | _ => []

end

/-- A key path, dotted, below another. -/
def dottedFrom (path : String) : List String → String
  | [] => path
  | key :: rest => dottedFrom (dottedBelow path key) rest

/-- A key path, dotted. -/
def dotted (path : List String) : String := dottedFrom "" path

/-- Sets one key: makes room for a table, or writes a leaf. -/
def Overlaying.put (state : Overlaying) (layer : SourceLayer) (path key : String) :
    TomlValue → Except ConfigurationConflict Overlaying
  | .table _ => do
      let existing ← state.slot layer path key
      return { state with into := TomlTable.insert key (.table existing) state.into }
  | other => .ok (state.leaf layer path key other)

/-- Sets one key path, relative to the table being merged into. -/
def setPath (layer : SourceLayer) : String → List String → TomlValue → Overlaying →
    Except ConfigurationConflict Overlaying
  | _, [], _, state => .ok state
  | path, [key], value, state => do
      let path := dottedBelow path key
      let state ← state.claim layer path (shapeOf value)
      state.put layer path key value
  | path, key :: rest, value, state => do
      let path := dottedBelow path key
      let existing ← state.slot layer path key
      let below ← setPath layer path rest value { state with into := existing }
      return { below with into := TomlTable.insert key (.table below.into) state.into }

theorem settings_ne_nil (table : TomlTable) : ∀ setting ∈ settings table, setting.1 ≠ [] := by
  induction table with
  | nil => rintro _ ⟨⟩
  | cons entry rest ih =>
      intro setting member
      unfold settings at member
      obtain here | later := List.mem_append.mp member
      · obtain ⟨key, value⟩ := entry
        unfold settingsOf at here
        obtain rfl | below := List.mem_cons.mp here
        · exact List.cons_ne_nil _ _
        · obtain ⟨_, _, rfl⟩ := List.mem_map.mp below
          exact List.cons_ne_nil _ _
      · exact ih setting later

/-- Settings under a key that holds a table are made in that table. -/
theorem foldlM_below (layer : SourceLayer) (path key : String) (below : List Setting)
    (nonempty : ∀ setting ∈ below, setting.1 ≠ []) (state : Overlaying) {existing : TomlTable}
    (held : state.into.lookup key = some (.table existing)) :
    (below.map fun setting => (key :: setting.1, setting.2)).foldlM
        (fun state setting => setPath layer path setting.1 setting.2 state) state =
      (do
        let reached ← below.foldlM (fun state setting =>
          setPath layer (dottedBelow path key) setting.1 setting.2 state)
            { state with into := existing }
        return { reached with into := TomlTable.insert key (.table reached.into) state.into }) := by
  induction below generalizing state existing with
  | nil =>
      show Except.ok state = Except.ok _
      rw [TomlTable.insert_lookup held]
  | cons setting below ih =>
      obtain ⟨rest, value⟩ := setting
      have deeper := nonempty (rest, value) (List.mem_cons_self ..)
      obtain ⟨next, rest, rfl⟩ : ∃ next later, rest = next :: later :=
        List.exists_cons_of_ne_nil deeper
      rw [List.map_cons, List.foldlM_cons, List.foldlM_cons]
      have slot : state.slot layer (dottedBelow path key) key = .ok existing := by
        unfold Overlaying.slot
        rw [held]
      have first : setPath layer path (key :: next :: rest) value state = (do
          let below ← setPath layer (dottedBelow path key) (next :: rest) value
            { state with into := existing }
          return { below with into := TomlTable.insert key (.table below.into) state.into }) := by
        show (state.slot layer (dottedBelow path key) key >>= _) = _
        rw [slot]
        rfl
      rw [first]
      cases made : setPath layer (dottedBelow path key) (next :: rest) value
          { state with into := existing } with
      | error conflict => rfl
      | ok reached =>
          have later : ∀ setting ∈ below, setting.1 ≠ [] := fun setting member =>
            nonempty setting (List.mem_cons_of_mem _ member)
          have now : (TomlTable.insert key (.table reached.into) state.into).lookup key =
              some (.table reached.into) := by
            rw [TomlTable.lookup_insert, if_pos rfl]
          have onward := ih later { reached with
            into := TomlTable.insert key (.table reached.into) state.into } now
          refine onward.trans ?_
          simp only [TomlTable.insert_insert]
          rfl

mutual

/-- **Overlaying a layer makes its settings in turn.** -/
theorem overlay_eq_foldlM (layer : SourceLayer) : ∀ (table : TomlTable) (path : String)
    (state : Overlaying), overlay layer path table state =
      (settings table).foldlM (fun state setting => setPath layer path setting.1 setting.2 state)
        state
  | [], path, state => rfl
  | entry :: rest, path, state => by
      unfold overlay settings
      rw [List.foldlM_append, overlayEntry_eq_foldlM layer entry path state]
      congr 1
      funext reached
      exact overlay_eq_foldlM layer rest path reached

theorem overlayEntry_eq_foldlM (layer : SourceLayer) : ∀ (entry : String × TomlValue)
    (path : String) (state : Overlaying), overlayEntry layer path entry state =
      (settingsOf entry).foldlM (fun state setting => setPath layer path setting.1 setting.2 state)
        state
  | (key, value), path, state => by
      unfold overlayEntry settingsOf
      rw [List.foldlM_cons]
      show (state.claim layer (dottedBelow path key) (shapeOf value) >>= _) =
        (state.claim layer (dottedBelow path key) (shapeOf value) >>= _) >>= _
      cases state.claim layer (dottedBelow path key) (shapeOf value) with
      | error conflict => rfl
      | ok claimed => exact overlayValue_eq_foldlM layer value path key claimed

theorem overlayValue_eq_foldlM (layer : SourceLayer) : ∀ (value : TomlValue) (path key : String)
    (state : Overlaying), overlayValue layer (dottedBelow path key) key value state =
      (state.put layer (dottedBelow path key) key value >>=
        ((settingsBelow value).map fun setting => (key :: setting.1, setting.2)).foldlM
          fun state setting => setPath layer path setting.1 setting.2 state)
  | .table inner, path, key, state => by
      unfold overlayValue Overlaying.put
      cases state.slot layer (dottedBelow path key) key with
      | error conflict => rfl
      | ok existing =>
          have held : (TomlTable.insert key (.table existing) state.into).lookup key =
              some (.table existing) := by
            rw [TomlTable.lookup_insert, if_pos rfl]
          have below := foldlM_below layer path key (settings inner) (settings_ne_nil inner)
            { state with into := TomlTable.insert key (.table existing) state.into } held
          simp only [TomlTable.insert_insert] at below
          show (overlay layer (dottedBelow path key) inner { state with into := existing } >>= _) =
            List.foldlM _ _ _
          rw [overlay_eq_foldlM layer inner (dottedBelow path key) { state with into := existing }]
          exact below.symm
  | .string _, _, _, _ | .integer _, _, _, _ | .float _, _, _, _ | .boolean _, _, _, _
  | .datetime _, _, _, _ | .array _, _, _, _ => rfl

end

end Renvor
