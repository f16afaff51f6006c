import SatComm.Trees.Documents

/-!
# The configuration loader

`Loader::load` starts from `defaults` and puts in what it reads from the document. A number is a
`double` that is cast to an `int`. The cast drops the fraction, and the language leaves it undefined
where the result is no `int`: then the load has no defined result, and the model gives `none`.
-/

namespace SatComm

open Trees

namespace Config

inductive Source
  | User | Default
deriving DecidableEq, Repr

/-- A value with its provenance. -/
structure Sourced (α : Type) where
  value : α
  source : Source
deriving DecidableEq, Repr

inductive LogLevel
  | TRACE | DEBUG | INFO | WARN | ERROR
deriving DecidableEq, Repr

inductive ServiceDomainPreference
  | UNKNOWN | CS_ONLY | PS_ONLY | CS_PS
deriving DecidableEq, Repr

inductive RatMode
  | PREF_CDMA_1X | PREF_CDMA_EVDO | PREF_GSM | PREF_WCDMA | PREF_LTE
  | PREF_TDSCDMA | PREF_NR5G | PREF_NB1_NTN | PREF_NR5G_NSA | PREF_NR5G_SA
deriving DecidableEq, Repr

structure BandPrefs where
  gsm_bands : Sourced (List Int)
  wcdma_bands : Sourced (List Int)
  lte_bands : Sourced (List Int)
  nr_nsa_bands : Sourced (List Int)
  nr_sa_bands : Sourced (List Int)
deriving DecidableEq, Repr

structure RatPrefs where
  modes : Sourced (List RatMode)
  /-- A `uint32_t`, or nothing. -/
  raw_bitmask : Sourced (Option Int)
deriving DecidableEq, Repr

structure SystemSelection where
  service_domain_preference : Sourced ServiceDomainPreference
  rat_preferences : RatPrefs
  bands : BandPrefs
deriving DecidableEq, Repr

structure Ntn where
  enable : Sourced Bool
  slot_id : Sourced Int
  require_profile_active : Sourced Bool
  system_selection : SystemSelection
deriving DecidableEq, Repr

structure Satcom where
  init_timeout_ms : Sourced Int
deriving DecidableEq, Repr

structure DataPlane where
  app_id : Sourced Int
  max_tx_pdu_override : Sourced (Option Int)
deriving DecidableEq, Repr

structure Diagnostics where
  log_level : Sourced LogLevel
deriving DecidableEq, Repr

end Config

structure Config where
  version : Config.Sourced String
  satcom : Config.Satcom
  ntn : Config.Ntn
  data_plane : Config.DataPlane
  diagnostics : Config.Diagnostics
deriving DecidableEq, Repr

namespace Config

def ServiceDomainPreference.to_string : ServiceDomainPreference → String
  | UNKNOWN => "UNKNOWN"
  | CS_ONLY => "CS_ONLY"
  | PS_ONLY => "PS_ONLY"
  | CS_PS => "CS_PS"

def kMap : List (String × RatMode) :=
  [("PREF_CDMA_1X", .PREF_CDMA_1X), ("PREF_CDMA_EVDO", .PREF_CDMA_EVDO),
    ("PREF_GSM", .PREF_GSM), ("PREF_WCDMA", .PREF_WCDMA), ("PREF_LTE", .PREF_LTE),
    ("PREF_TDSCDMA", .PREF_TDSCDMA), ("PREF_NR5G", .PREF_NR5G),
    ("PREF_NB1_NTN", .PREF_NB1_NTN), ("PREF_NR5G_NSA", .PREF_NR5G_NSA),
    ("PREF_NR5G_SA", .PREF_NR5G_SA)]

def rat_from_string (s : String) : Option RatMode :=
  kMap.lookup s

def parse_loglevel (s : String) : LogLevel :=
  if s = "TRACE" then .TRACE
  else if s = "DEBUG" then .DEBUG
  else if s = "WARN" then .WARN
  else if s = "ERROR" then .ERROR
  else .INFO

def parse_service_domain (s : String) : ServiceDomainPreference :=
  if s = "CS_ONLY" then .CS_ONLY
  else if s = "PS_ONLY" then .PS_ONLY
  else if s = "CS_PS" then .CS_PS
  else .UNKNOWN

def defaults : Config where
  version := ⟨"1.0", .Default⟩
  satcom := { init_timeout_ms := ⟨5000, .Default⟩ }
  ntn :=
    { enable := ⟨true, .Default⟩
      slot_id := ⟨1, .Default⟩
      require_profile_active := ⟨false, .Default⟩
      system_selection :=
        { service_domain_preference := ⟨.PS_ONLY, .Default⟩
          rat_preferences :=
            { modes := ⟨[.PREF_NB1_NTN], .Default⟩
              raw_bitmask := ⟨none, .Default⟩ }
          bands :=
            { gsm_bands := ⟨[], .Default⟩
              wcdma_bands := ⟨[], .Default⟩
              lte_bands := ⟨[], .Default⟩
              nr_nsa_bands := ⟨[], .Default⟩
              nr_sa_bands := ⟨[], .Default⟩ } } }
  data_plane := { app_id := ⟨0, .Default⟩, max_tx_pdu_override := ⟨none, .Default⟩ }
  diagnostics := { log_level := ⟨.INFO, .Default⟩ }

/-! ## Reading one member -/

/-- What a run computes; `none` where the language leaves it undefined. -/
abbrev Defined (α : Type) := Option α

/-- `static_cast<int>(valuedouble)`. -/
def castInt (valuedouble : ℚ) : Defined Int :=
  if -2 ^ 31 ≤ cutOff valuedouble ∧ cutOff valuedouble < 2 ^ 31 then some (cutOff valuedouble)
  else none

/-- `static_cast<uint32_t>` of an `int`. -/
def castUInt32 (n : Int) : Int :=
  n % 2 ^ 32

-- the getters give what is written to `out`, `none` where they return false

def get_bool (obj : Document) (key : String) : Option Bool :=
  match obj.item key with
  | some (.bool b) => some b
  | _ => none

def get_int (obj : Document) (key : String) : Defined (Option Int) :=
  match obj.item key with
  | some (.number valuedouble) => (castInt valuedouble).map some
  | _ => some none

def get_string (obj : Document) (key : String) : Option String :=
  match obj.item key with
  | some (.text s) => some s
  | _ => none

def get_optional_int_or_null (obj : Document) (key : String) : Defined (Option (Option Int)) :=
  match obj.item key with
  | some .null => some (some none)
  | some (.number valuedouble) => (castInt valuedouble).map (fun n => some (some n))
  | _ => some none

/-- The loop of `get_int_array`. -/
def intsOf : List Document → Defined (List Int)
  | [] => some []
  | .number valuedouble :: rest => do
    let n ← castInt valuedouble
    let v ← intsOf rest
    some (n :: v)
  | _ :: rest => intsOf rest

def get_int_array (obj : Document) (key : String) (dst : Sourced (List Int)) :
    Defined (Sourced (List Int)) :=
  match obj.item key with
  | some (.array items) => (intsOf items).map (fun v => ⟨v, .User⟩)
  | _ => some dst

def ratModeOf : Document → Option RatMode
  | .text s => rat_from_string s
  | _ => none

/-- What the loop of `get_rat_modes` says of an item. -/
def ratWarning : Document → Option String
  | .text s =>
    if (rat_from_string s).isSome then none else some ("Unknown RAT mode ignored: " ++ s ++ "\n")
  | _ => none

def get_rat_modes (obj : Document) (key : String) (dst : Sourced (List RatMode)) :
    Sourced (List RatMode) × List String :=
  match obj.item key with
  | some (.array items) =>
    let modes := items.filterMap ratModeOf
    (if modes ≠ [] then ⟨modes, .User⟩ else dst, items.filterMap ratWarning)
  | _ => (dst, [])

/-- `cJSON_HasObjectItem`, which does not look at the case of the names. -/
def hasObjectItem (key : String) : Document → Bool
  | .object members => members.any (fun member => member.1.toLower = key.toLower)
  | _ => false

/-! ## The sections of the document -/

structure Loader where
  cfg : Config
  /-- What was written to each stream, piece by piece. -/
  errors : List String
  warnings : List String
  parsedOk : Bool
  fileOk : Bool
deriving DecidableEq, Repr

namespace Loader

def error (l : Loader) (s : String) : Loader :=
  { l with errors := l.errors ++ [s] }

def warn (l : Loader) (s : String) : Loader :=
  { l with warnings := l.warnings ++ [s] }

/-- The `version` block of `extract_top`. -/
def extractVersion (l : Loader) (doc : Document) : Loader :=
  match get_string doc "version" with
  | some v => { l with cfg := { l.cfg with version := ⟨v, .User⟩ } }
  | none =>
    l.warn ("version missing or not string — default \"" ++ l.cfg.version.value ++ "\" used.\n")

/-- The `satcom` block of `extract_top`. -/
def extractSatcom (l : Loader) (doc : Document) : Defined Loader :=
  match doc.objectItem "satcom" with
  | some sat => do
    let t ← get_int sat "init_timeout_ms"
    match t.filter (0 ≤ ·) with
    | some t => some { l with cfg := { l.cfg with satcom := { init_timeout_ms := ⟨t, .User⟩ } } }
    | none =>
      if hasObjectItem "init_timeout_ms" sat then
        some (l.warn ("satcom.init_timeout_ms invalid — kept default " ++
          toString l.cfg.satcom.init_timeout_ms.value ++ ".\n"))
      else some l
  | none => some l

/-- The fields that the `ntn` block reads before it comes to the system selection. -/
def extractSlot (l : Loader) (ntn : Document) : Defined Loader := do
  let l := match get_bool ntn "enable" with
    | some b => { l with cfg := { l.cfg with ntn := { l.cfg.ntn with enable := ⟨b, .User⟩ } } }
    | none => l
  let i ← get_int ntn "slot_id"
  let l := match i with
    | some i =>
      if i = 1 ∨ i = 2 then
        { l with cfg := { l.cfg with ntn := { l.cfg.ntn with slot_id := ⟨i, .User⟩ } } }
      else l.warn ("ntn.slot_id out of enum \x7b1,2\x7d — kept default " ++
        toString l.cfg.ntn.slot_id.value ++ ".\n")
    | none => l
  some (match get_bool ntn "require_profile_active" with
    | some b =>
      { l with cfg := { l.cfg with ntn := { l.cfg.ntn with require_profile_active := ⟨b, .User⟩ } } }
    | none => l)

def setSelection (l : Loader) (f : SystemSelection → SystemSelection) : Loader :=
  { l with cfg := { l.cfg with ntn :=
    { l.cfg.ntn with system_selection := f l.cfg.ntn.system_selection } } }

def extractDomain (l : Loader) (ss : Document) : Loader :=
  match get_string ss "service_domain_preference" with
  | some sd => l.setSelection fun selection =>
    { selection with service_domain_preference := ⟨parse_service_domain sd, .User⟩ }
  | none => l.warn ("system_selection.service_domain_preference missing — default " ++
      l.cfg.ntn.system_selection.service_domain_preference.value.to_string ++ ".\n")

def extractRatPrefs (l : Loader) (ss : Document) : Defined Loader :=
  match ss.objectItem "rat_preferences" with
  | some rp => do
    let opti ← get_optional_int_or_null rp "raw_bitmask_override"
    let l := match opti with
      | some opti => l.setSelection fun selection =>
        { selection with rat_preferences :=
          { selection.rat_preferences with raw_bitmask := ⟨opti.map castUInt32, .User⟩ } }
      | none => l
    let (modes, said) := get_rat_modes rp "modes" l.cfg.ntn.system_selection.rat_preferences.modes
    let l := l.setSelection fun selection =>
      { selection with rat_preferences := { selection.rat_preferences with modes := modes } }
    some { l with warnings := l.warnings ++ said }
  | none => some (l.warn "system_selection.rat_preferences missing — using defaults.\n")

def extractBands (l : Loader) (ss : Document) : Defined Loader :=
  match ss.objectItem "bands" with
  | some bd => do
    let bands := l.cfg.ntn.system_selection.bands
    let gsm ← get_int_array bd "gsm_bands" bands.gsm_bands
    let wcdma ← get_int_array bd "wcdma_bands" bands.wcdma_bands
    let lte ← get_int_array bd "lte_bands" bands.lte_bands
    let nrNsa ← get_int_array bd "nr_nsa_bands" bands.nr_nsa_bands
    let nrSa ← get_int_array bd "nr_sa_bands" bands.nr_sa_bands
    some (l.setSelection fun selection =>
      { selection with bands := ⟨gsm, wcdma, lte, nrNsa, nrSa⟩ })
  | none => some (l.warn "system_selection.bands missing — no band restrictions applied.\n")

/-- The `ntn` block of `extract_top`. -/
def extractNtn (l : Loader) (doc : Document) : Defined Loader :=
  match doc.objectItem "ntn" with
  | some ntn => do
    let l ← l.extractSlot ntn
    match ntn.objectItem "system_selection" with
    | some ss => do
      let l ← (l.extractDomain ss).extractRatPrefs ss
      l.extractBands ss
    | none => some (l.warn "ntn.system_selection missing — using defaults.\n")
  | none => some (l.warn "ntn section missing — using defaults.\n")

/-- The `data_plane` block of `extract_top`. -/
def extractDataPlane (l : Loader) (doc : Document) : Defined Loader :=
  match doc.objectItem "data_plane" with
  | some dp => do
    let appid ← get_int dp "app_id"
    let l := match appid.filter (0 ≤ ·) with
      | some appid =>
        { l with cfg := { l.cfg with data_plane :=
          { l.cfg.data_plane with app_id := ⟨appid, .User⟩ } } }
      | none =>
        if hasObjectItem "app_id" dp then
          l.warn ("data_plane.app_id invalid — kept default " ++
            toString l.cfg.data_plane.app_id.value ++ ".\n")
        else l
    let pdu ← get_optional_int_or_null dp "max_tx_pdu_override"
    some (match pdu with
      | some pdu =>
        if pdu.any (· < 1) then l.warn "data_plane.max_tx_pdu_override < 1 — ignoring.\n"
        else { l with cfg := { l.cfg with data_plane :=
          { l.cfg.data_plane with max_tx_pdu_override := ⟨pdu, .User⟩ } } }
      | none => l)
  | none => some l

/-- The `diagnostics` block of `extract_top`. -/
def extractDiagnostics (l : Loader) (doc : Document) : Loader :=
  match doc.objectItem "diagnostics" with
  | some dg =>
    match get_string dg "log_level" with
    | some lv => { l with cfg := { l.cfg with diagnostics :=
        { log_level := ⟨parse_loglevel lv, .User⟩ } } }
    | none => l
  | none => l

def extract_top (l : Loader) : Document → Defined Loader
  | .object members => do
    let doc := Document.object members
    let l ← (l.extractVersion doc).extractSatcom doc
    let l ← l.extractNtn doc
    let l ← l.extractDataPlane doc
    some (l.extractDiagnostics doc)
  | _ => some (l.error "Top-level JSON is not an object.\n")

/-- `Loader::load`. The file's text is `none` where it cannot be read; of a text that is no
document `parse` gives where it stopped. -/
def load (parse : String → Except (Option String) Document) (json_path : String)
    (file : Option String) : Defined Loader :=
  let l : Loader := ⟨defaults, [], [], false, false⟩
  match file with
  | none => some (l.warn ("Config not found or unreadable: " ++ json_path ++
      " — using defaults.\n"))
  | some raw =>
    let l := { l with fileOk := true }
    match parse raw with
    | .error eptr => some (l.error ("Invalid JSON syntax at/near: " ++ eptr.getD "(unknown)" ++
        " — using defaults.\n"))
    | .ok doc => { l with parsedOk := true }.extract_top doc

end Loader

end Config

end SatComm
