import SatComm.Config.Sections

/-!
# The documented configuration

A field of the documented configuration holds what the document has for it if that is of the
documented type and range, and the default otherwise. The loader leaves another value where a cast
drops a fraction, where a name that is not known is read as some value, where a list is taken
without its wrong items, and where a `uint32_t` is read as an `int`. `Clear` is a document without
such fields.
-/

namespace SatComm

open Trees

namespace Config

variable {α : Type}

/-! ## The description of the fields -/

def intSchema : Schema Int :=
  .integer (-2 ^ 31) (2 ^ 31)

def domainNames : List (String × ServiceDomainPreference) :=
  [("UNKNOWN", .UNKNOWN), ("CS_ONLY", .CS_ONLY), ("PS_ONLY", .PS_ONLY), ("CS_PS", .CS_PS)]

def levelNames : List (String × LogLevel) :=
  [("TRACE", .TRACE), ("DEBUG", .DEBUG), ("INFO", .INFO), ("WARN", .WARN), ("ERROR", .ERROR)]

def modesSchema : Schema (List RatMode) :=
  (Schema.listOf (.nameIn kMap)).such List.Nodup

def maskSchema : Schema (Option Int) :=
  (Schema.integer 0 (2 ^ 32)).nullable

/-- What belongs into a field: the value that stands in the document, if it is accepted. -/
def documented (s : Schema α) (item : Option Document) (dflt : Sourced α) : Sourced α :=
  match item.bind s with
  | some v => ⟨v, .User⟩
  | none => dflt

def documentedBands (look : String → Option Document) (dflt : BandPrefs) : BandPrefs where
  gsm_bands := documented intSchema.listOf (look "gsm_bands") dflt.gsm_bands
  wcdma_bands := documented intSchema.listOf (look "wcdma_bands") dflt.wcdma_bands
  lte_bands := documented intSchema.listOf (look "lte_bands") dflt.lte_bands
  nr_nsa_bands := documented intSchema.listOf (look "nr_nsa_bands") dflt.nr_nsa_bands
  nr_sa_bands := documented intSchema.listOf (look "nr_sa_bands") dflt.nr_sa_bands

def documentedRatPrefs (look : String → Option Document) (dflt : RatPrefs) : RatPrefs where
  modes := documented modesSchema (look "modes") dflt.modes
  raw_bitmask := documented maskSchema (look "raw_bitmask_override") dflt.raw_bitmask

def documentedConfig (doc : Document) : Config where
  version := documented .text (doc.follow ["version"]) defaults.version
  satcom :=
    { init_timeout_ms := documented (intSchema.such (0 ≤ ·))
        (doc.follow ["satcom", "init_timeout_ms"]) defaults.satcom.init_timeout_ms }
  ntn :=
    { enable := documented .bool (doc.follow ["ntn", "enable"]) defaults.ntn.enable
      slot_id := documented (intSchema.such (fun i => i = 1 ∨ i = 2))
        (doc.follow ["ntn", "slot_id"]) defaults.ntn.slot_id
      require_profile_active := documented .bool (doc.follow ["ntn", "require_profile_active"])
        defaults.ntn.require_profile_active
      system_selection :=
        { service_domain_preference := documented (.nameIn domainNames)
            (doc.follow ["ntn", "system_selection", "service_domain_preference"])
            defaults.ntn.system_selection.service_domain_preference
          rat_preferences := documentedRatPrefs
            (fun key => doc.follow ["ntn", "system_selection", "rat_preferences", key])
            defaults.ntn.system_selection.rat_preferences
          bands := documentedBands
            (fun key => doc.follow ["ntn", "system_selection", "bands", key])
            defaults.ntn.system_selection.bands } }
  data_plane :=
    { app_id := documented (intSchema.such (0 ≤ ·)) (doc.follow ["data_plane", "app_id"])
        defaults.data_plane.app_id
      max_tx_pdu_override := documented (intSchema.such (1 ≤ ·)).nullable
        (doc.follow ["data_plane", "max_tx_pdu_override"])
        defaults.data_plane.max_tx_pdu_override }
  diagnostics :=
    { log_level := documented (.nameIn levelNames) (doc.follow ["diagnostics", "log_level"])
        defaults.diagnostics.log_level }

/-- The configuration that belongs to a file: without a document it is the default one. -/
def documentedLoad (parse : String → Except (Option String) Document) (file : Option String) :
    Config :=
  match file.bind (fun raw => (parse raw).toOption) with
  | some doc => documentedConfig doc
  | none => defaults

/-! ## When a field is as documented -/

/-- The numbers whose cast is defined. -/
def IntSized (q : ℚ) : Prop := -2 ^ 31 - 1 < q ∧ q < 2 ^ 31

instance (q : ℚ) : Decidable (IntSized q) :=
  inferInstanceAs (Decidable (-2 ^ 31 - 1 < q ∧ q < 2 ^ 31))

/-- A number here fits an `int`, and is whole or satisfies `p`. -/
def WholeOr (p : ℚ → Prop) (item : Option Document) : Prop :=
  ∀ q, item = some (.number q) → IntSized q ∧ (q.den = 1 ∨ p q)

/-- A text here is one of these names. -/
def Named (names : List (String × α)) (item : Option Document) : Prop :=
  ∀ s, item = some (.text s) → ∃ v, names.lookup s = some v

/-- A number here is whole and both an `int` and a `uint32_t`. -/
def MaskShared (item : Option Document) : Prop :=
  ∀ q, item = some (.number q) → q.den = 1 ∧ 0 ≤ q ∧ q < 2 ^ 31

/-- Of an array here the items are the names of modes, each once, or none of them is such a name;
and there are items. -/
def ModesClear (item : Option Document) : Prop :=
  ∀ items, item = some (.array items) → items ≠ [] ∧
    ((∀ item ∈ items, ratModeOf item ≠ none) ∧ (items.filterMap ratModeOf).Nodup ∨
      ∀ item ∈ items, ratModeOf item = none)

/-- Of an array here the items are whole numbers that fit an `int`. -/
def Ints (item : Option Document) : Prop :=
  ∀ items, item = some (.array items) → ∀ item ∈ items, ∃ n : Int,
    item = .number n ∧ -2 ^ 31 ≤ n ∧ n < 2 ^ 31

theorem castInt_of_intSized {q : ℚ} (h : IntSized q) : castInt q = some (cutOff q) := by
  have hlow : -2 ^ 31 ≤ cutOff q := (le_cutOff_iff (by norm_num)).2 (by push_cast; exact h.1)
  have hhigh : cutOff q < 2 ^ 31 := (cutOff_lt_iff (by norm_num)).2 (by push_cast; exact h.2)
  rw [castInt, if_pos ⟨hlow, hhigh⟩]

theorem castInt_eq_none {q : ℚ} (h : ¬ IntSized q) : castInt q = none := by
  rw [castInt, if_neg]
  rintro ⟨hlow, hhigh⟩
  apply h
  have hlow' := (le_cutOff_iff (by norm_num)).1 hlow
  have hhigh' := (cutOff_lt_iff (by norm_num)).1 hhigh
  push_cast at hlow' hhigh'
  exact ⟨hlow', hhigh'⟩

theorem intSchema_number (q : ℚ) :
    intSchema (.number q) = if q.den = 1 ∧ IntSized q then some (cutOff q) else none := by
  unfold intSchema Schema.integer
  by_cases hden : q.den = 1
  · have hq : ((q.num : Int) : ℚ) = q := Rat.coe_int_num_of_den_eq_one hden
    have hlow : -2 ^ 31 ≤ q.num ↔ -2 ^ 31 - 1 < q := by
      rw [← cutOff_of_den hden, le_cutOff_iff (by norm_num)]
      push_cast
      rfl
    have hhigh : q.num < 2 ^ 31 ↔ q < 2 ^ 31 := by
      rw [← cutOff_of_den hden, cutOff_lt_iff (by norm_num)]
      push_cast
      rfl
    simp only [hden, true_and, IntSized, hlow, hhigh, cutOff_of_den hden]
  · simp [hden]

theorem takeInt_eq_documented_iff (ok : Int → Prop) [DecidablePred ok] (item : Option Document)
    (d : Int) :
    takeInt ok item ⟨d, .Default⟩ = some (documented (intSchema.such ok) item ⟨d, .Default⟩) ↔
      WholeOr (fun q => ¬ ok (cutOff q)) item := by
  unfold takeInt documented WholeOr Schema.such
  rcases item with _ | ⟨_ | _ | q | _ | _ | _⟩
  case some.number =>
    simp only [Option.bind_some, Option.some.injEq, Document.number.injEq, forall_eq',
      intSchema_number]
    by_cases hsized : IntSized q
    · rw [castInt_of_intSized hsized]
      by_cases hden : q.den = 1 <;> by_cases hok : ok (cutOff q) <;>
        simp [Option.filter, hsized, hden, hok]
    · simp [castInt_eq_none hsized, hsized]
  all_goals simp [intSchema, Schema.integer]

theorem takePdu_eq_documented_iff (item : Option Document) (d : Option Int) :
    takePdu item ⟨d, .Default⟩ =
        some (documented (intSchema.such (1 ≤ ·)).nullable item ⟨d, .Default⟩) ↔
      WholeOr (fun q => q < 1) item := by
  unfold takePdu documented WholeOr Schema.nullable Schema.such
  rcases item with _ | ⟨_ | _ | q | _ | _ | _⟩
  case some.number =>
    have hlt : cutOff q < 1 ↔ q < 1 := by simpa using cutOff_lt_iff (q := q) Int.one_pos
    simp only [Option.bind_some, Option.some.injEq, Document.number.injEq, forall_eq',
      intSchema_number]
    by_cases hsized : IntSized q
    · rw [castInt_of_intSized hsized]
      by_cases hden : q.den = 1 <;> by_cases hq : q < 1
      all_goals
        have hge : 1 ≤ cutOff q ↔ ¬ q < 1 := by rw [← hlt, not_lt]
        simp [Option.filter, hsized, hden, hlt, hge, hq]
    · simp [castInt_eq_none hsized, hsized]
  all_goals simp [intSchema, Schema.integer]

theorem takeMask_eq_documented_iff (item : Option Document) (d : Option Int) :
    takeMask item ⟨d, .Default⟩ = some (documented maskSchema item ⟨d, .Default⟩) ↔
      MaskShared item := by
  unfold takeMask documented MaskShared maskSchema Schema.nullable Schema.integer
  rcases item with _ | ⟨_ | _ | q | _ | _ | _⟩
  case some.number =>
    simp only [Option.bind_some, Option.some.injEq, Document.number.injEq, forall_eq']
    by_cases hsized : IntSized q
    · rw [castInt_of_intSized hsized]
      by_cases hden : q.den = 1
      · have hq : ((q.num : Int) : ℚ) = q := Rat.coe_int_num_of_den_eq_one hden
        have hhigh : q.num < 2 ^ 31 := by
          have := hsized.2
          rw [← hq] at this
          exact_mod_cast this
        by_cases hnum : 0 ≤ q.num
        · have hwrap : castUInt32 q.num = q.num := Int.emod_eq_of_lt hnum (by omega)
          have hfits : q.num < 4294967296 := by omega
          simp [hden, hnum, hfits, cutOff_of_den hden, hwrap, hsized.2, Rat.num_nonneg.1 hnum]
        · have hneg : ¬ 0 ≤ q := fun h => hnum (Rat.num_nonneg.2 h)
          simp [hden, hnum, hneg]
      · simp [hden]
    · have hout : ¬ (0 ≤ q ∧ q < 2 ^ 31) := fun h => hsized ⟨by linarith [h.1], h.2⟩
      simp [castInt_eq_none hsized, hout]
  all_goals simp

theorem takeText_eq_documented_iff {parse : String → α} {names : List (String × α)}
    (hparse : ∀ s v, names.lookup s = some v → parse s = v) (item : Option Document) (d : α) :
    takeText parse item ⟨d, .Default⟩ = documented (.nameIn names) item ⟨d, .Default⟩ ↔
      Named names item := by
  unfold takeText documented Named Schema.nameIn
  rcases item with _ | ⟨_ | _ | _ | s | _ | _⟩
  case some.text =>
    cases hs : names.lookup s with
    | none => simp [hs]
    | some v => simp [hs, hparse s v hs]
  all_goals simp

theorem mem_of_lookup {names : List (String × α)} {s : String} {v : α}
    (h : names.lookup s = some v) : (s, v) ∈ names := by
  obtain ⟨before, after, rfl, -⟩ := List.lookup_eq_some_iff.1 h
  simp

theorem parse_service_domain_of_lookup (s : String) (v : ServiceDomainPreference)
    (h : domainNames.lookup s = some v) : parse_service_domain s = v := by
  have hall : ∀ entry ∈ domainNames, parse_service_domain entry.1 = entry.2 := by
    simp [domainNames, parse_service_domain]
  exact hall (s, v) (mem_of_lookup h)

theorem parse_loglevel_of_lookup (s : String) (v : LogLevel)
    (h : levelNames.lookup s = some v) : parse_loglevel s = v := by
  have hall : ∀ entry ∈ levelNames, parse_loglevel entry.1 = entry.2 := by
    simp [levelNames, parse_loglevel]
  exact hall (s, v) (mem_of_lookup h)

theorem ratModeOf_eq_nameIn : ratModeOf = Schema.nameIn kMap := by
  funext item
  cases item <;> rfl

theorem takeModes_eq_documented_iff (item : Option Document) (d : List RatMode) :
    takeModes item ⟨d, .Default⟩ = documented modesSchema item ⟨d, .Default⟩ ↔
      ModesClear item := by
  unfold takeModes documented ModesClear modesSchema Schema.such Schema.listOf
  rcases item with _ | ⟨_ | _ | _ | _ | items | _⟩
  case some.array =>
    simp only [Option.bind_some, Option.some.injEq, Document.array.injEq, forall_eq',
      ← ratModeOf_eq_nameIn]
    cases hread : items.mapM ratModeOf with
    | some read =>
      have hall : ∀ item ∈ items, ratModeOf item ≠ none := by
        intro item hitem hnone
        rw [mapM_eq_none_iff.2 ⟨item, hitem, hnone⟩] at hread
        cases hread
      have hfilter := filterMap_of_mapM hread
      cases items with
      | nil =>
        cases hread
        simp [Option.filter]
      | cons item rest =>
        have hread' : read ≠ [] := by
          intro hnil
          rw [hnil, List.filterMap_eq_nil_iff] at hfilter
          exact hall item (by simp) (hfilter item (by simp))
        have hsome : ¬ ∀ i ∈ item :: rest, ratModeOf i = none :=
          fun h => hall item (by simp) (h item (by simp))
        rw [hfilter, if_pos hread', iff_true_intro hall, eq_false hsome]
        by_cases hnodup : read.Nodup <;> simp [Option.filter, hnodup]
    | none =>
      obtain ⟨item, hitem, hnone⟩ := mapM_eq_none_iff.1 hread
      have hitems : items ≠ [] := List.ne_nil_of_mem hitem
      have hnot : ¬ ∀ i ∈ items, ratModeOf i ≠ none := fun h => h item hitem hnone
      rw [eq_false hnot, ← List.filterMap_eq_nil_iff]
      by_cases hnil : items.filterMap ratModeOf = [] <;> simp [hnil, hitems]
  all_goals simp

theorem intSchema_ne_none_iff (item : Document) :
    intSchema item ≠ none ↔ ∃ n : Int, item = .number n ∧ -2 ^ 31 ≤ n ∧ n < 2 ^ 31 := by
  constructor
  · unfold intSchema Schema.integer
    intro h
    cases item with
    | number q =>
      by_cases hq : q.den = 1 ∧ -2 ^ 31 ≤ q.num ∧ q.num < 2 ^ 31
      · exact ⟨q.num, by rw [Rat.coe_int_num_of_den_eq_one hq.1], hq.2⟩
      · exact absurd (if_neg hq) h
    | _ => simp at h
  · rintro ⟨n, rfl, hlow, hhigh⟩
    simp only [intSchema, Schema.integer, Rat.den_intCast, Rat.num_intCast]
    rw [if_pos ⟨trivial, hlow, hhigh⟩]
    exact Option.some_ne_none n

theorem intsOf_of_mapM {items : List Document} {v : List Int}
    (h : items.mapM intSchema = some v) : intsOf items = some v := by
  induction items generalizing v with
  | nil => simpa [intsOf] using h
  | cons item items ih =>
    simp only [List.mapM_cons, Option.pure_def, Option.bind_eq_bind, Option.bind_eq_some_iff,
      Option.some.injEq] at h
    obtain ⟨n, hn, rest, hrest, rfl⟩ := h
    cases item with
    | number q =>
      rw [intSchema_number] at hn
      by_cases hq : q.den = 1 ∧ IntSized q
      · rw [if_pos hq] at hn
        cases hn
        simp [intsOf, castInt_of_intSized hq.2, ih hrest]
      · simp [hq] at hn
    | _ => simp [intSchema, Schema.integer] at hn

theorem takeInts_eq_documented_iff (item : Option Document) (d : List Int) :
    takeInts item ⟨d, .Default⟩ = some (documented intSchema.listOf item ⟨d, .Default⟩) ↔
      Ints item := by
  unfold takeInts documented Ints Schema.listOf
  rcases item with _ | ⟨_ | _ | _ | _ | items | _⟩
  case some.array =>
    simp only [Option.bind_some, Option.some.injEq, Document.array.injEq, forall_eq',
      ← intSchema_ne_none_iff]
    cases hread : items.mapM intSchema with
    | some v =>
      rw [intsOf_of_mapM hread]
      refine iff_of_true rfl (fun item hitem hnone => ?_)
      rw [mapM_eq_none_iff.2 ⟨item, hitem, hnone⟩] at hread
      cases hread
    | none =>
      obtain ⟨item, hitem, hnone⟩ := mapM_eq_none_iff.1 hread
      refine iff_of_false ?_ (fun h => h item hitem hnone)
      cases intsOf items <;> simp
  all_goals simp

/-! ## The whole load -/

/-- What the fields of a document must be for the loader to read them as they are described. -/
structure Clear (doc : Document) : Prop where
  init_timeout_ms : WholeOr (fun q => q ≤ -1) (doc.follow ["satcom", "init_timeout_ms"])
  slot_id : WholeOr (fun q => q < 1 ∨ 3 ≤ q) (doc.follow ["ntn", "slot_id"])
  service_domain_preference : Named domainNames
    (doc.follow ["ntn", "system_selection", "service_domain_preference"])
  raw_bitmask : MaskShared
    (doc.follow ["ntn", "system_selection", "rat_preferences", "raw_bitmask_override"])
  modes : ModesClear (doc.follow ["ntn", "system_selection", "rat_preferences", "modes"])
  bands : ∀ key ∈ ["gsm_bands", "wcdma_bands", "lte_bands", "nr_nsa_bands", "nr_sa_bands"],
    Ints (doc.follow ["ntn", "system_selection", "bands", key])
  app_id : WholeOr (fun q => q ≤ -1) (doc.follow ["data_plane", "app_id"])
  max_tx_pdu_override : WholeOr (fun q => q < 1)
    (doc.follow ["data_plane", "max_tx_pdu_override"])
  log_level : Named levelNames (doc.follow ["diagnostics", "log_level"])

theorem not_nonneg_cutOff_iff (q : ℚ) : ¬ 0 ≤ cutOff q ↔ q ≤ -1 := by
  rw [cutOff_nonneg_iff, not_lt]

theorem not_slot_cutOff_iff (q : ℚ) :
    ¬ (cutOff q = 1 ∨ cutOff q = 2) ↔ q < 1 ∨ 3 ≤ q := by
  have hone := cutOff_lt_iff (q := q) (n := 1) (by norm_num)
  have hthree := cutOff_lt_iff (q := q) (n := 3) (by norm_num)
  push_cast at hone hthree
  rw [← not_lt (a := q), ← hone, ← hthree]
  omega

theorem takeText_version (item : Option Document) (c : Sourced String) :
    takeText id item c = documented .text item c := by
  rcases item with _ | ⟨_ | _ | _ | s | _ | _⟩ <;> rfl

theorem takeBool_eq_documented (item : Option Document) (c : Sourced Bool) :
    takeBool item c = documented .bool item c := by
  rcases item with _ | ⟨_ | b | _ | _ | _ | _⟩ <;> rfl

theorem takeBands_eq_documented_iff (look : String → Option Document) :
    takeBands look defaults.ntn.system_selection.bands =
        some (documentedBands look defaults.ntn.system_selection.bands) ↔
      ∀ key ∈ ["gsm_bands", "wcdma_bands", "lte_bands", "nr_nsa_bands", "nr_sa_bands"],
        Ints (look key) := by
  simp only [takeBands, documentedBands, defaults, List.forall_mem_cons,
    ← takeInts_eq_documented_iff _ []]
  constructor
  · intro h
    simp only [Option.bind_eq_bind, Option.bind_eq_some_iff, Option.some.injEq,
      BandPrefs.mk.injEq] at h
    obtain ⟨_, hgsm, _, hwcdma, _, hlte, _, hnrNsa, _, hnrSa, rfl, rfl, rfl, rfl, rfl⟩ := h
    exact ⟨hgsm, hwcdma, hlte, hnrNsa, hnrSa, by simp⟩
  · rintro ⟨hgsm, hwcdma, hlte, hnrNsa, hnrSa, -⟩
    rw [hgsm, hwcdma, hlte, hnrNsa, hnrSa]
    rfl

theorem takeRatPrefs_eq_documented_iff (look : String → Option Document) :
    takeRatPrefs look defaults.ntn.system_selection.rat_preferences =
        some (documentedRatPrefs look defaults.ntn.system_selection.rat_preferences) ↔
      MaskShared (look "raw_bitmask_override") ∧ ModesClear (look "modes") := by
  simp only [takeRatPrefs, documentedRatPrefs, defaults, ← takeMask_eq_documented_iff _ none,
    ← takeModes_eq_documented_iff _ [RatMode.PREF_NB1_NTN]]
  constructor
  · intro h
    simp only [Option.bind_eq_bind, Option.bind_eq_some_iff, Option.some.injEq,
      RatPrefs.mk.injEq] at h
    obtain ⟨_, hmask, hmodes, rfl⟩ := h
    exact ⟨hmask, hmodes⟩
  · rintro ⟨hmask, hmodes⟩
    rw [hmask, hmodes]
    rfl

theorem takeNtn_eq_documented_iff (doc : Document) :
    takeNtn doc defaults.ntn = some (documentedConfig doc).ntn ↔
      WholeOr (fun q => q < 1 ∨ 3 ≤ q) (doc.follow ["ntn", "slot_id"]) ∧
      Named domainNames (doc.follow ["ntn", "system_selection", "service_domain_preference"]) ∧
      (MaskShared
          (doc.follow ["ntn", "system_selection", "rat_preferences", "raw_bitmask_override"]) ∧
        ModesClear (doc.follow ["ntn", "system_selection", "rat_preferences", "modes"])) ∧
      ∀ key ∈ ["gsm_bands", "wcdma_bands", "lte_bands", "nr_nsa_bands", "nr_sa_bands"],
        Ints (doc.follow ["ntn", "system_selection", "bands", key]) := by
  have hslot := takeInt_eq_documented_iff (fun i => i = 1 ∨ i = 2) (doc.follow ["ntn", "slot_id"])
    1
  simp only [not_slot_cutOff_iff] at hslot
  rw [← hslot, ← takeText_eq_documented_iff parse_service_domain_of_lookup _ .PS_ONLY,
    ← takeRatPrefs_eq_documented_iff
      (fun key => doc.follow ["ntn", "system_selection", "rat_preferences", key]),
    ← takeBands_eq_documented_iff
      (fun key => doc.follow ["ntn", "system_selection", "bands", key])]
  constructor
  · intro h
    simp only [takeNtn, takeSelection, documentedConfig, Option.bind_eq_bind,
      Option.bind_eq_some_iff, Option.some.injEq, Ntn.mk.injEq] at h
    obtain ⟨_, hint, _, ⟨_, hrat, _, hbands, rfl⟩, -, rfl, -, hselection⟩ := h
    injection hselection with hdomain hrat' hbands'
    exact ⟨hint, hdomain, hrat.trans (congrArg some hrat'), hbands.trans (congrArg some hbands')⟩
  · rintro ⟨hint, hdomain, hrat, hbands⟩
    have hint' : takeInt (fun i => i = 1 ∨ i = 2) (doc.follow ["ntn", "slot_id"])
        defaults.ntn.slot_id = some (documentedConfig doc).ntn.slot_id := hint
    have hdomain' : takeText parse_service_domain
        (doc.follow ["ntn", "system_selection", "service_domain_preference"])
        defaults.ntn.system_selection.service_domain_preference =
          (documentedConfig doc).ntn.system_selection.service_domain_preference := hdomain
    simp only [takeNtn, takeSelection, hint', hdomain', hrat, hbands, Option.bind_eq_bind,
      Option.bind_some, takeBool_eq_documented]
    rfl

theorem takeDataPlane_eq_documented_iff (doc : Document) :
    takeDataPlane doc defaults.data_plane = some (documentedConfig doc).data_plane ↔
      WholeOr (fun q => q ≤ -1) (doc.follow ["data_plane", "app_id"]) ∧
      WholeOr (fun q => q < 1) (doc.follow ["data_plane", "max_tx_pdu_override"]) := by
  have hint := takeInt_eq_documented_iff (0 ≤ ·) (doc.follow ["data_plane", "app_id"]) 0
  simp only [not_nonneg_cutOff_iff] at hint
  rw [← hint, ← takePdu_eq_documented_iff _ none]
  constructor
  · intro h
    simp only [takeDataPlane, documentedConfig, Option.bind_eq_bind, Option.bind_eq_some_iff,
      Option.some.injEq, DataPlane.mk.injEq] at h
    obtain ⟨_, happ, _, hpdu, rfl, rfl⟩ := h
    exact ⟨happ, hpdu⟩
  · rintro ⟨happ, hpdu⟩
    have happ' : takeInt (0 ≤ ·) (doc.follow ["data_plane", "app_id"])
        defaults.data_plane.app_id = some (documentedConfig doc).data_plane.app_id := happ
    have hpdu' : takePdu (doc.follow ["data_plane", "max_tx_pdu_override"])
        defaults.data_plane.max_tx_pdu_override =
          some (documentedConfig doc).data_plane.max_tx_pdu_override := hpdu
    simp only [takeDataPlane, happ', hpdu', Option.bind_eq_bind, Option.bind_some]

theorem takeConfig_eq_documented_iff (doc : Document) :
    takeConfig doc defaults = some (documentedConfig doc) ↔ Clear doc := by
  have hint := takeInt_eq_documented_iff (0 ≤ ·) (doc.follow ["satcom", "init_timeout_ms"]) 5000
  simp only [not_nonneg_cutOff_iff] at hint
  have hntn := takeNtn_eq_documented_iff doc
  have hdata := takeDataPlane_eq_documented_iff doc
  have hlevel := takeText_eq_documented_iff parse_loglevel_of_lookup
    (doc.follow ["diagnostics", "log_level"]) .INFO
  constructor
  · intro h
    simp only [takeConfig, Option.bind_eq_bind, Option.bind_eq_some_iff, Option.some.injEq] at h
    obtain ⟨timeout, htimeout, ntn, htake, data, htakeData, heq⟩ := h
    have htimeout' := congrArg (fun c => c.satcom.init_timeout_ms) heq
    have hntn' := congrArg Config.ntn heq
    have hdata' := congrArg Config.data_plane heq
    have hlevel' := congrArg (fun c => c.diagnostics.log_level) heq
    obtain ⟨hslot, hdomain, ⟨hmask, hmodes⟩, hbands⟩ :=
      hntn.1 (htake.trans (congrArg some hntn'))
    obtain ⟨happ, hpdu⟩ := hdata.1 (htakeData.trans (congrArg some hdata'))
    exact ⟨hint.1 (htimeout.trans (congrArg some htimeout')), hslot, hdomain, hmask, hmodes, hbands,
      happ, hpdu, hlevel.1 hlevel'⟩
  · intro h
    have htimeout : takeInt (0 ≤ ·) (doc.follow ["satcom", "init_timeout_ms"])
        defaults.satcom.init_timeout_ms = some (documentedConfig doc).satcom.init_timeout_ms :=
      hint.2 h.init_timeout_ms
    have hntn' := hntn.2 ⟨h.slot_id, h.service_domain_preference, ⟨h.raw_bitmask, h.modes⟩, h.bands⟩
    have hdata' := hdata.2 ⟨h.app_id, h.max_tx_pdu_override⟩
    have hlevel' : takeText parse_loglevel (doc.follow ["diagnostics", "log_level"])
        defaults.diagnostics.log_level = (documentedConfig doc).diagnostics.log_level :=
      hlevel.2 h.log_level
    simp only [takeConfig, htimeout, hntn', hdata', hlevel', Option.bind_eq_bind,
      Option.bind_some, takeText_version]
    rfl

/-- Without members there is nothing that the two could read differently. -/
theorem follow_of_not_object {doc : Document} (h : ∀ members, doc ≠ .object members)
    (name : String) (path : List String) : doc.follow (name :: path) = none := by
  cases doc with
  | object members => exact absurd rfl (h members)
  | _ => rfl

theorem documentedConfig_of_not_object {doc : Document}
    (h : ∀ members, doc ≠ .object members) : documentedConfig doc = defaults := by
  simp only [documentedConfig, documentedRatPrefs, documentedBands, follow_of_not_object h]
  rfl

theorem clear_of_not_object {doc : Document} (h : ∀ members, doc ≠ .object members) :
    Clear doc := by
  constructor <;>
    simp [WholeOr, Named, MaskShared, ModesClear, Ints, follow_of_not_object h]

/-- The configuration is the documented one exactly for the documents that are clear. -/
theorem load_eq_documented_iff (parse : String → Except (Option String) Document)
    (json_path : String) (file : Option String) :
    (Loader.load parse json_path file).map (·.cfg) = some (documentedLoad parse file) ↔
      ∀ raw doc, file = some raw → parse raw = .ok doc → Clear doc := by
  cases file with
  | none => simp [Loader.load, documentedLoad, Loader.warn]
  | some raw =>
    cases hparse : parse raw with
    | error eptr =>
      refine iff_of_true ?_ ?_
      · simp [Loader.load, documentedLoad, Loader.error, hparse, Except.toOption]
      · rintro _ doc ⟨⟩ hdoc
        rw [hparse] at hdoc
        cases hdoc
    | ok doc =>
      have hload : (Loader.load parse json_path (some raw)).map (·.cfg) =
          (Loader.extract_top ⟨defaults, [], [], true, true⟩ doc).map (·.cfg) := by
        simp [Loader.load, hparse]
      have hdocumented : documentedLoad parse (some raw) = documentedConfig doc := by
        simp [documentedLoad, hparse, Except.toOption]
      rw [hload, hdocumented]
      have hclear : (∀ raw' doc', some raw = some raw' → parse raw' = .ok doc' → Clear doc') ↔
          Clear doc := by
        constructor
        · intro h
          exact h raw doc rfl hparse
        · rintro h _ doc' ⟨⟩ hdoc'
          rw [hparse] at hdoc'
          cases hdoc'
          exact h
      rw [hclear]
      by_cases hobject : ∃ members, doc = .object members
      · obtain ⟨members, rfl⟩ := hobject
        rw [Loader.extract_top_cfg]
        exact takeConfig_eq_documented_iff (.object members)
      · rw [not_exists] at hobject
        refine iff_of_true ?_ (clear_of_not_object hobject)
        rw [documentedConfig_of_not_object hobject]
        cases doc with
        | object members => exact absurd rfl (hobject members)
        | _ => rfl

/-- A document whose service domain is not written as the description has it. -/
def lowerCaseDomain : Document :=
  .object [("ntn", .object [("system_selection",
    .object [("service_domain_preference", .text "ps_only")])])]

/-- Its text in the file. -/
def lowerCaseText : String :=
  "\x7b\"ntn\":\x7b\"system_selection\":\x7b\"service_domain_preference\":\"ps_only\"\x7d\x7d\x7d"

/-- What the parser makes of that text. -/
def parseLowerCase (raw : String) : Except (Option String) Document :=
  if raw = lowerCaseText then .ok lowerCaseDomain else .error none

theorem load_not_documented :
    ¬ ∀ (parse : String → Except (Option String) Document) (json_path : String)
      (file : Option String),
      (Loader.load parse json_path file).map (·.cfg) = some (documentedLoad parse file) := by
  intro h
  have hdomain := congrArg (Option.map
    (fun c => c.ntn.system_selection.service_domain_preference.value))
    (h parseLowerCase "ntn_config.json" (some lowerCaseText))
  -- the loader has `UNKNOWN` there, the default is `PS_ONLY`
  revert hdomain
  decide

end Config

end SatComm
