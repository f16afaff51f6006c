import SatComm.Config.Loader

/-!
# What the loader leaves in the fields

Every block of the loader writes fields of its own, each from one member of the document. `takeInt`
and its siblings give a field by what it was and by that member; `takeConfig` puts them together, and
`extract_top_cfg` says that the configuration after the blocks is this one.
-/

namespace SatComm

open Trees

namespace Config

variable {α : Type}

/-! ## What the loader leaves in a field -/

def takeText (parse : String → α) (item : Option Document) (c : Sourced α) : Sourced α :=
  match item with
  | some (.text s) => ⟨parse s, .User⟩
  | _ => c

def takeBool (item : Option Document) (c : Sourced Bool) : Sourced Bool :=
  match item with
  | some (.bool b) => ⟨b, .User⟩
  | _ => c

def takeInt (ok : Int → Prop) [DecidablePred ok] (item : Option Document) (c : Sourced Int) :
    Defined (Sourced Int) :=
  match item with
  | some (.number q) => (castInt q).map (fun n => if ok n then ⟨n, .User⟩ else c)
  | _ => some c

def takePdu (item : Option Document) (c : Sourced (Option Int)) : Defined (Sourced (Option Int)) :=
  match item with
  | some .null => some ⟨none, .User⟩
  | some (.number q) => (castInt q).map (fun n => if n < 1 then c else ⟨some n, .User⟩)
  | _ => some c

def takeMask (item : Option Document) (c : Sourced (Option Int)) :
    Defined (Sourced (Option Int)) :=
  match item with
  | some .null => some ⟨none, .User⟩
  | some (.number q) => (castInt q).map (fun n => ⟨some (castUInt32 n), .User⟩)
  | _ => some c

def takeModes (item : Option Document) (c : Sourced (List RatMode)) : Sourced (List RatMode) :=
  match item with
  | some (.array items) =>
    if items.filterMap ratModeOf ≠ [] then ⟨items.filterMap ratModeOf, .User⟩ else c
  | _ => c

def takeInts (item : Option Document) (c : Sourced (List Int)) : Defined (Sourced (List Int)) :=
  match item with
  | some (.array items) => (intsOf items).map (fun v => ⟨v, .User⟩)
  | _ => some c

-- the members of a section are given by `look`, by their names

def takeBands (look : String → Option Document) (c : BandPrefs) : Defined BandPrefs := do
  let gsm ← takeInts (look "gsm_bands") c.gsm_bands
  let wcdma ← takeInts (look "wcdma_bands") c.wcdma_bands
  let lte ← takeInts (look "lte_bands") c.lte_bands
  let nrNsa ← takeInts (look "nr_nsa_bands") c.nr_nsa_bands
  let nrSa ← takeInts (look "nr_sa_bands") c.nr_sa_bands
  some ⟨gsm, wcdma, lte, nrNsa, nrSa⟩

def takeRatPrefs (look : String → Option Document) (c : RatPrefs) : Defined RatPrefs := do
  let mask ← takeMask (look "raw_bitmask_override") c.raw_bitmask
  some ⟨takeModes (look "modes") c.modes, mask⟩

def takeSelection (doc : Document) (c : SystemSelection) : Defined SystemSelection := do
  let rat ← takeRatPrefs (fun key => doc.follow ["ntn", "system_selection", "rat_preferences", key])
    c.rat_preferences
  let bands ← takeBands (fun key => doc.follow ["ntn", "system_selection", "bands", key]) c.bands
  some
    { service_domain_preference := takeText parse_service_domain
        (doc.follow ["ntn", "system_selection", "service_domain_preference"])
        c.service_domain_preference
      rat_preferences := rat
      bands := bands }

def takeNtn (doc : Document) (c : Ntn) : Defined Ntn := do
  let slot ← takeInt (fun i => i = 1 ∨ i = 2) (doc.follow ["ntn", "slot_id"]) c.slot_id
  let selection ← takeSelection doc c.system_selection
  some
    { enable := takeBool (doc.follow ["ntn", "enable"]) c.enable
      slot_id := slot
      require_profile_active := takeBool (doc.follow ["ntn", "require_profile_active"])
        c.require_profile_active
      system_selection := selection }

def takeDataPlane (doc : Document) (c : DataPlane) : Defined DataPlane := do
  let appId ← takeInt (0 ≤ ·) (doc.follow ["data_plane", "app_id"]) c.app_id
  let pdu ← takePdu (doc.follow ["data_plane", "max_tx_pdu_override"]) c.max_tx_pdu_override
  some ⟨appId, pdu⟩

def takeConfig (doc : Document) (c : Config) : Defined Config := do
  let timeout ← takeInt (0 ≤ ·) (doc.follow ["satcom", "init_timeout_ms"])
    c.satcom.init_timeout_ms
  let ntn ← takeNtn doc c.ntn
  let dataPlane ← takeDataPlane doc c.data_plane
  some
    { version := takeText id (doc.follow ["version"]) c.version
      satcom := ⟨timeout⟩
      ntn := ntn
      data_plane := dataPlane
      diagnostics := ⟨takeText parse_loglevel (doc.follow ["diagnostics", "log_level"])
        c.diagnostics.log_level⟩ }

/-! ## Fields by what the getters give -/

theorem takeText_item (parse : String → α) (obj : Document) (key : String) (c : Sourced α) :
    takeText parse (obj.item key) c =
      ((get_string obj key).map (fun s => (⟨parse s, .User⟩ : Sourced α))).getD c := by
  unfold takeText get_string
  rcases obj.item key with _ | ⟨_ | _ | _ | s | _ | _⟩ <;> rfl

theorem takeBool_item (obj : Document) (key : String) (c : Sourced Bool) :
    takeBool (obj.item key) c =
      ((get_bool obj key).map (fun b => (⟨b, .User⟩ : Sourced Bool))).getD c := by
  unfold takeBool get_bool
  rcases obj.item key with _ | ⟨_ | b | _ | _ | _ | _⟩ <;> rfl

theorem takeInt_item (ok : Int → Prop) [DecidablePred ok] (obj : Document) (key : String)
    (c : Sourced Int) :
    takeInt ok (obj.item key) c = (get_int obj key).map (fun got =>
      ((got.filter (fun n => ok n)).map (fun n => (⟨n, .User⟩ : Sourced Int))).getD c) := by
  unfold takeInt get_int
  rcases obj.item key with _ | ⟨_ | _ | q | _ | _ | _⟩
  case some.number =>
    simp only [Option.map_map]
    congr 1
    funext n
    by_cases hn : ok n <;> simp [Option.filter, hn]
  all_goals rfl

theorem takePdu_item (obj : Document) (key : String) (c : Sourced (Option Int)) :
    takePdu (obj.item key) c = (get_optional_int_or_null obj key).map (fun got =>
      match got with
      | some pdu => if pdu.any (· < 1) then c else ⟨pdu, .User⟩
      | none => c) := by
  unfold takePdu get_optional_int_or_null
  rcases obj.item key with _ | ⟨_ | _ | q | _ | _ | _⟩
  case some.number =>
    simp only [Option.map_map]
    congr 1
    funext n
    by_cases hn : n < 1 <;> simp [hn]
  all_goals rfl

theorem takeMask_item (obj : Document) (key : String) (c : Sourced (Option Int)) :
    takeMask (obj.item key) c = (get_optional_int_or_null obj key).map (fun got =>
      (got.map (fun n => (⟨n.map castUInt32, .User⟩ : Sourced (Option Int)))).getD c) := by
  unfold takeMask get_optional_int_or_null
  rcases obj.item key with _ | ⟨_ | _ | q | _ | _ | _⟩
  case some.number =>
    simp only [Option.map_map]
    rfl
  all_goals rfl

theorem takeModes_item (obj : Document) (key : String) (c : Sourced (List RatMode)) :
    takeModes (obj.item key) c = (get_rat_modes obj key c).1 := by
  unfold takeModes get_rat_modes
  rcases obj.item key with _ | ⟨_ | _ | _ | _ | items | _⟩ <;> rfl

theorem takeInts_item (obj : Document) (key : String) (c : Sourced (List Int)) :
    takeInts (obj.item key) c = get_int_array obj key c := by
  unfold takeInts get_int_array
  rcases obj.item key with _ | ⟨_ | _ | _ | _ | items | _⟩ <;> rfl

/-! ## The sections leave these fields -/

namespace Loader

@[simp]
theorem warn_cfg (l : Loader) (s : String) : (l.warn s).cfg = l.cfg := rfl

theorem extractVersion_cfg (l : Loader) (doc : Document) :
    (l.extractVersion doc).cfg =
      { l.cfg with version := takeText id (doc.follow ["version"]) l.cfg.version } := by
  rw [Document.follow_singleton, takeText_item]
  unfold extractVersion
  cases get_string doc "version" <;> rfl

theorem extractSatcom_cfg (l : Loader) (doc : Document) :
    (l.extractSatcom doc).map (·.cfg) =
      (takeInt (0 ≤ ·) (doc.follow ["satcom", "init_timeout_ms"])
        l.cfg.satcom.init_timeout_ms).map (fun t => { l.cfg with satcom := ⟨t⟩ }) := by
  unfold extractSatcom
  cases hsat : doc.objectItem "satcom" with
  | none => rw [Document.follow_of_objectItem_eq_none hsat]; rfl
  | some sat =>
    rw [Document.follow_of_objectItem hsat, Document.follow_singleton, takeInt_item]
    simp only [Option.bind_eq_bind]
    cases get_int sat "init_timeout_ms" with
    | none => rfl
    | some t =>
      simp only [Option.bind_some, Option.map_some]
      cases t.filter (fun t => decide (0 ≤ t)) with
      | some t => rfl
      | none => cases hasObjectItem "init_timeout_ms" sat <;> rfl

theorem extractDiagnostics_cfg (l : Loader) (doc : Document) :
    (l.extractDiagnostics doc).cfg =
      { l.cfg with diagnostics := ⟨takeText parse_loglevel
        (doc.follow ["diagnostics", "log_level"]) l.cfg.diagnostics.log_level⟩ } := by
  unfold extractDiagnostics
  cases hdg : doc.objectItem "diagnostics" with
  | none => rw [Document.follow_of_objectItem_eq_none hdg]; rfl
  | some dg =>
    rw [Document.follow_of_objectItem hdg, Document.follow_singleton, takeText_item]
    simp only
    cases get_string dg "log_level" <;> rfl

theorem extractDataPlane_cfg (l : Loader) (doc : Document) :
    (l.extractDataPlane doc).map (·.cfg) =
      (takeDataPlane doc l.cfg.data_plane).map (fun d => { l.cfg with data_plane := d }) := by
  unfold extractDataPlane takeDataPlane
  cases hdp : doc.objectItem "data_plane" with
  | none =>
    rw [Document.follow_of_objectItem_eq_none hdp, Document.follow_of_objectItem_eq_none hdp]
    rfl
  | some dp =>
    rw [Document.follow_of_objectItem hdp, Document.follow_of_objectItem hdp,
      Document.follow_singleton, Document.follow_singleton, takeInt_item, takePdu_item]
    simp only [Option.bind_eq_bind]
    cases get_int dp "app_id" with
    | none => rfl
    | some appid =>
      cases get_optional_int_or_null dp "max_tx_pdu_override" with
      | none => rfl
      | some pdu =>
        simp only [Option.bind_some, Option.map_some]
        cases appid.filter (fun appid => decide (0 ≤ appid)) with
        | some appid =>
          rcases pdu with _ | pdu
          · rfl
          · by_cases hpdu : pdu.any (· < 1) <;> simp [hpdu]
        | none =>
          cases hasObjectItem "app_id" dp
          all_goals
            rcases pdu with _ | pdu
            · rfl
            · by_cases hpdu : pdu.any (· < 1) <;> simp [hpdu]

/-- Of a configuration only this changes: its system selection. -/
def withSelection (c : Config) (selection : SystemSelection) : Config :=
  { c with ntn := { c.ntn with system_selection := selection } }

theorem extractSlot_cfg (l : Loader) (ntn : Document) :
    (l.extractSlot ntn).map (·.cfg) =
      (takeInt (fun i => i = 1 ∨ i = 2) (ntn.item "slot_id") l.cfg.ntn.slot_id).map (fun slot =>
        { l.cfg with ntn := { l.cfg.ntn with
            enable := takeBool (ntn.item "enable") l.cfg.ntn.enable
            slot_id := slot
            require_profile_active := takeBool (ntn.item "require_profile_active")
              l.cfg.ntn.require_profile_active } }) := by
  unfold extractSlot
  rw [takeInt_item, takeBool_item, takeBool_item]
  cases get_int ntn "slot_id" with
  | none => rfl
  | some i =>
    simp only [Option.bind_eq_bind, Option.bind_some, Option.map_some]
    cases get_bool ntn "enable"
    all_goals
      cases get_bool ntn "require_profile_active"
      all_goals
        rcases i with _ | i
        · rfl
        · by_cases hi : i = 1 ∨ i = 2 <;> simp [Option.filter, hi]

theorem extractDomain_cfg (l : Loader) (ss : Document) :
    (l.extractDomain ss).cfg = withSelection l.cfg
      { l.cfg.ntn.system_selection with
        service_domain_preference := takeText parse_service_domain
          (ss.item "service_domain_preference")
          l.cfg.ntn.system_selection.service_domain_preference } := by
  rw [takeText_item]
  unfold extractDomain
  cases get_string ss "service_domain_preference" <;> rfl

/-- The domain and the preferences of the system selection. -/
def prefsStep (ss : Document) (c : Config) : Defined Config :=
  (takeRatPrefs (fun key => ss.follow ["rat_preferences", key])
    c.ntn.system_selection.rat_preferences).map (fun rat => withSelection c
      { c.ntn.system_selection with
        service_domain_preference := takeText parse_service_domain
          (ss.item "service_domain_preference") c.ntn.system_selection.service_domain_preference
        rat_preferences := rat })

theorem extractRatPrefs_cfg (l : Loader) (ss : Document) :
    ((l.extractDomain ss).extractRatPrefs ss).map (·.cfg) = prefsStep ss l.cfg := by
  have hdomain := extractDomain_cfg l ss
  generalize l.extractDomain ss = l' at hdomain ⊢
  unfold extractRatPrefs prefsStep takeRatPrefs
  cases hrp : ss.objectItem "rat_preferences" with
  | none =>
    simp only [Document.follow_of_objectItem_eq_none hrp]
    exact congrArg some hdomain
  | some rp =>
    simp only [Document.follow_of_objectItem hrp, Document.follow_singleton, takeMask_item,
      takeModes_item, setSelection, hdomain]
    cases get_optional_int_or_null rp "raw_bitmask_override" with
    | none => rfl
    | some opti => cases opti <;> simp [hdomain, withSelection]

def bandsStep (ss : Document) (c : Config) : Defined Config :=
  (takeBands (fun key => ss.follow ["bands", key]) c.ntn.system_selection.bands).map
    (fun bands => withSelection c { c.ntn.system_selection with bands := bands })

theorem extractBands_cfg (l : Loader) (ss : Document) :
    (l.extractBands ss).map (·.cfg) = bandsStep ss l.cfg := by
  unfold extractBands bandsStep takeBands
  cases hbd : ss.objectItem "bands" with
  | none =>
    simp only [Document.follow_of_objectItem_eq_none hbd]
    rfl
  | some bd =>
    simp only [Document.follow_of_objectItem hbd, Document.follow_singleton, takeInts_item,
      Option.bind_eq_bind, Option.map_bind, Function.comp_def]
    rfl

/-- Two parts of a run, each known by what it does to the configuration. -/
theorem bind_cfg {x : Defined Loader} {f : Loader → Defined Loader} {c : Defined Config}
    {g : Config → Defined Config} (hx : x.map (·.cfg) = c)
    (hf : ∀ l, (f l).map (·.cfg) = g l.cfg) : (x.bind f).map (·.cfg) = c.bind g := by
  subst hx
  cases x with
  | none => rfl
  | some l => exact hf l

theorem extractNtn_cfg (l : Loader) (doc : Document) :
    (l.extractNtn doc).map (·.cfg) =
      (takeNtn doc l.cfg.ntn).map (fun ntn => { l.cfg with ntn := ntn }) := by
  unfold extractNtn takeNtn
  cases hntn : doc.objectItem "ntn" with
  | none =>
    simp only [takeSelection, takeRatPrefs, takeBands,
      Document.follow_of_objectItem_eq_none hntn]
    rfl
  | some ntn =>
    simp only [takeSelection, Document.follow_of_objectItem hntn, Document.follow_singleton,
      Option.bind_eq_bind]
    cases hss : ntn.objectItem "system_selection" with
    | none =>
      simp only [Document.follow_of_objectItem_eq_none hss]
      rw [bind_cfg (extractSlot_cfg l ntn) (g := some) (fun l => rfl)]
      cases takeInt (fun i => i = 1 ∨ i = 2) (ntn.item "slot_id") l.cfg.ntn.slot_id <;> rfl
    | some ss =>
      simp only [Document.follow_of_objectItem hss, Document.follow_singleton]
      have hselection : ∀ l : Loader, (((l.extractDomain ss).extractRatPrefs ss).bind
          (fun l => l.extractBands ss)).map (·.cfg) = (prefsStep ss l.cfg).bind (bandsStep ss) :=
        fun l => bind_cfg (extractRatPrefs_cfg l ss) (fun l => extractBands_cfg l ss)
      rw [bind_cfg (extractSlot_cfg l ntn)
        (g := fun c => (prefsStep ss c).bind (bandsStep ss)) hselection]
      cases takeInt (fun i => i = 1 ∨ i = 2) (ntn.item "slot_id") l.cfg.ntn.slot_id with
      | none => rfl
      | some slot =>
        simp only [Option.map_some, Option.bind_some, prefsStep]
        cases takeRatPrefs (fun key => ss.follow ["rat_preferences", key])
            l.cfg.ntn.system_selection.rat_preferences with
        | none => rfl
        | some rat =>
          simp only [Option.map_some, Option.bind_some, bandsStep, withSelection]
          cases takeBands (fun key => ss.follow ["bands", key])
              l.cfg.ntn.system_selection.bands <;> rfl

def ntnStep (doc : Document) (c : Config) : Defined Config :=
  (takeNtn doc c.ntn).map (fun ntn => { c with ntn := ntn })

/-- The last two blocks. -/
def lastStep (doc : Document) (c : Config) : Defined Config :=
  (takeDataPlane doc c.data_plane).map (fun d => { c with
    data_plane := d
    diagnostics := ⟨takeText parse_loglevel (doc.follow ["diagnostics", "log_level"])
      c.diagnostics.log_level⟩ })

theorem extract_top_cfg (l : Loader) (members : List (String × Document)) :
    (l.extract_top (.object members)).map (·.cfg) = takeConfig (.object members) l.cfg := by
  generalize hdoc : Document.object members = doc
  have hfirst : ((l.extractVersion doc).extractSatcom doc).map (·.cfg) =
      (takeInt (0 ≤ ·) (doc.follow ["satcom", "init_timeout_ms"])
        l.cfg.satcom.init_timeout_ms).map (fun t => { l.cfg with
          version := takeText id (doc.follow ["version"]) l.cfg.version
          satcom := ⟨t⟩ }) := by
    rw [extractSatcom_cfg, extractVersion_cfg]
  have hlast : ∀ l : Loader, ((l.extractDataPlane doc).bind
      (fun l => some (l.extractDiagnostics doc))).map (·.cfg) = lastStep doc l.cfg := by
    intro l
    rw [bind_cfg (extractDataPlane_cfg l doc)
      (f := fun l => some (l.extractDiagnostics doc)) (g := fun c => some { c with
      diagnostics := ⟨takeText parse_loglevel (doc.follow ["diagnostics", "log_level"])
        c.diagnostics.log_level⟩ }) (fun l => congrArg some (extractDiagnostics_cfg l doc))]
    unfold lastStep
    cases takeDataPlane doc l.cfg.data_plane <;> rfl
  have hrest : ∀ l : Loader, ((l.extractNtn doc).bind (fun l => (l.extractDataPlane doc).bind
      (fun l => some (l.extractDiagnostics doc)))).map (·.cfg) =
      (ntnStep doc l.cfg).bind (lastStep doc) :=
    fun l => bind_cfg (extractNtn_cfg l doc) hlast
  subst hdoc
  unfold extract_top takeConfig
  simp only [Option.bind_eq_bind]
  rw [bind_cfg hfirst (g := fun c => (ntnStep _ c).bind (lastStep _)) hrest]
  cases takeInt (0 ≤ ·) ((Document.object members).follow ["satcom", "init_timeout_ms"])
      l.cfg.satcom.init_timeout_ms with
  | none => rfl
  | some timeout =>
    simp only [Option.map_some, Option.bind_some, ntnStep]
    cases takeNtn (.object members) l.cfg.ntn with
    | none => rfl
    | some ntn =>
      simp only [Option.map_some, Option.bind_some, lastStep]
      cases takeDataPlane (.object members) l.cfg.data_plane <;> rfl

end Loader

end Config

end SatComm
