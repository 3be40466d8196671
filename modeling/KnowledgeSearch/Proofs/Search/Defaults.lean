/-
  KnowledgeSearch/Proofs/Search/Defaults.lean
  ===========================================
  **The defaults of an accepted configuration.**

  A configuration holds the defaults of the service that is made of it: the weights it
  starts with, and the grid and the cut-off of a calibration that names none.  The checks of
  configurations and those of operations are made in different places.  Here the former are
  held against the latter: the weights and the grid that are accepted are always in order,
  but the cut-off is held against nothing but zero, and a calibration holds it against the
  largest limit too (`Service.defaults_in_order`).
-/
import KnowledgeSearch.Proofs.Config.Checks
import KnowledgeSearch.Proofs.Search.Calibration

namespace KnowledgeSearch

namespace Config

variable {config : Config}

/-- A service can be made of a configuration that passes its checks. -/
theorem Checked.initial (h : config.Checked) :
    ∃ state, ServiceState.initial config = .ok state := by
  unfold ServiceState.initial
  dsimp only
  rw [HybridWeights.normalized_eq ⟨h.textWeight.1, h.textWeight.2⟩
    ⟨h.vectorWeight.1, h.vectorWeight.2⟩]
  exact ⟨_, rfl⟩

/-- The grid of a configuration lies in the unit interval. -/
theorem Checked.isUnit (h : config.Checked) :
    ∀ weight ∈ config.search.hybrid.calibrationGrid, Service.isUnit weight = true :=
  h.gridRange

end Config

namespace Service

variable {s : Service} {samples : List CalibrationSample}

/-- The configured grid and cut-off pass the checks of a calibration if the cut-off does not
    pass the largest limit. -/
theorem checkCalibration_defaults (h : s.config.Checked) (hsamples : samples ≠ [])
    (hk : s.config.search.hybrid.calibrationK ≤ s.config.search.maxLimit) :
    s.checkCalibration samples s.config.search.hybrid.calibrationGrid
      s.config.search.hybrid.calibrationK = .ok () :=
  checkCalibration_ok_iff.mpr ⟨hsamples, h.calibrationGrid, h.isUnit, h.calibrationK, hk⟩

/-- A calibration is refused if its configured cut-off passes the largest limit. -/
theorem calibrate_cutoff (h : s.config.Checked) (hsamples : samples ≠ [])
    (hk : s.config.search.maxLimit < s.config.search.hybrid.calibrationK) (table : String) :
    s.calibrate table samples none none =
      Search.ofExcept (.error (.cutoffOutside s.config.search.maxLimit)) := by
  have hgrid : (s.config.search.hybrid.calibrationGrid.find? fun weight => !isUnit weight) =
      none := by
    simpa using h.isUnit
  have hcheck : s.checkCalibration samples s.config.search.hybrid.calibrationGrid
      s.config.search.hybrid.calibrationK =
        .error (.cutoffOutside s.config.search.maxLimit) := by
    unfold checkCalibration
    simp [hsamples, h.calibrationGrid, hgrid, hk]
  unfold calibrate
  dsimp only [Option.getD_none]
  rw [hcheck]
  rfl

/-- The configured grid comes to a report, whatever has been fetched. -/
theorem exists_report (h : s.config.Checked) (table : String) (k : UInt32)
    (fetched : List FetchedSample) :
    ∃ first others, s.config.search.hybrid.calibrationGrid.mapM
      (FetchedSample.point table k.toNat fetched) = .ok (first :: others) := by
  obtain ⟨points, hpoints⟩ := exists_mapM_eq_ok fun weight hmem =>
    FetchedSample.point_of_isUnit (h.isUnit weight hmem) table k.toNat fetched
  cases points with
  | nil =>
    have hscored := forall₂_of_mapM_eq_ok hpoints
    exact absurd (List.forall₂_nil_right_iff.mp hscored) h.calibrationGrid
  | cons first others => exact ⟨first, others, hpoints⟩

/-- **An accepted configuration is enough for its own defaults, but for the cut-off.**  A
    service can be made of it.  A calibration of some samples that leaves its grid and its
    cut-off to the configuration goes on to fetch the samples, and has nothing to refuse
    after them, if the configured cut-off does not pass the largest limit; if it does, the
    calibration is refused with nothing sent, whatever table and samples it names. -/
theorem defaults_in_order {text : String} {config : Config}
    (h : Config.ofString text = .ok config) :
    (∃ state, ServiceState.initial config = .ok state) ∧
    ∀ (d : Dialect) (table : String) (samples : List CalibrationSample), samples ≠ [] →
      (config.search.hybrid.calibrationK ≤ config.search.maxLimit →
        ∃ report : List FetchedSample → CalibrationReport,
          Service.calibrate ⟨config, d⟩ table samples none none = (do
            let fetched ← Service.fetchSamples ⟨config, d⟩ table 0 samples
            Search.setDefaultWeights (report fetched).best.weights
            pure (report fetched))) ∧
      (config.search.maxLimit < config.search.hybrid.calibrationK →
        Service.calibrate ⟨config, d⟩ table samples none none =
          Search.ofExcept (.error (.cutoffOutside config.search.maxLimit))) := by
  have hchecked := Config.checked_of_ofString h
  refine ⟨hchecked.initial, fun d table samples hsamples => ⟨fun hk => ?_, fun hk => ?_⟩⟩
  · choose first others hpoints using
      exists_report (s := ⟨config, d⟩) hchecked table config.search.hybrid.calibrationK
    have hcheck := checkCalibration_defaults (s := ⟨config, d⟩) hchecked hsamples hk
    refine ⟨fun fetched =>
      { table
        k := config.search.hybrid.calibrationK
        samples := samples.length
        best := CalibrationPoint.best (first fetched) (others fetched)
        points := first fetched :: others fetched }, ?_⟩
    unfold calibrate
    dsimp only [Option.getD_none]
    rw [hcheck]
    change (Service.fetchSamples ⟨config, d⟩ table 0 samples >>= fun fetched => _) = _
    congr 1
    funext fetched
    rw [hpoints fetched]
    rfl
  · exact calibrate_cutoff (s := ⟨config, d⟩) hchecked hsamples hk table

/-- A table of notes, with the largest limit and all other settings of a search left to
    their defaults. -/
def notesText (maxLimit : String) : String :=
  "service = ['info']\nstorage = ['lite', 'kb.db', 1]\n" ++
    "tables = [['notes', 'id', ['id', 'title'], 'vec', 2, ['title']]]\n" ++
    "[search]\nmax_limit = " ++ maxLimit ++ "\nhybrid = [0, 1]\n"

/-- The largest limit and the cut-off that a document comes to. -/
def limits? (text : String) : Option (UInt32 × UInt32) :=
  (Config.ofString text).toOption.map fun config =>
    (config.search.maxLimit, config.search.hybrid.calibrationK)

/-- With a largest limit of ten the defaults are in order. -/
theorem defaults_in_order_ten :
    ∃ config, Config.ofString (notesText "10") = .ok config ∧
      (∃ state, ServiceState.initial config = .ok state) ∧
      ∃ report : List FetchedSample → CalibrationReport,
        Service.calibrate ⟨config, .lite⟩ "notes" [⟨"sea", none, []⟩] none none = (do
          let fetched ← Service.fetchSamples ⟨config, .lite⟩ "notes" 0 [⟨"sea", none, []⟩]
          Search.setDefaultWeights (report fetched).best.weights
          pure (report fetched)) := by
  have hlimits : limits? (notesText "10") = some (10, 10) := by decide +kernel
  obtain ⟨config, hread, hpair⟩ := Config.exists_of_map_ofString hlimits
  obtain ⟨hlimit, hk⟩ := Prod.mk.inj hpair
  obtain ⟨hinitial, hcalibrate⟩ := defaults_in_order hread
  have hfits : config.search.hybrid.calibrationK ≤ config.search.maxLimit := by
    rw [hlimit, hk]
    exact UInt32.le_refl _
  exact ⟨config, hread, hinitial,
    (hcalibrate .lite "notes" [⟨"sea", none, []⟩] (List.cons_ne_nil _ _)).1 hfits⟩

/-- With a largest limit of five the default cut-off is refused. -/
theorem calibrate_refuses_default :
    ∃ config, Config.ofString (notesText "5") = .ok config ∧
      Service.calibrate ⟨config, .lite⟩ "notes" [⟨"sea", none, []⟩] none none =
        Search.ofExcept (.error (.cutoffOutside 5)) := by
  have hlimits : limits? (notesText "5") = some (5, 10) := by decide +kernel
  obtain ⟨config, hread, hpair⟩ := Config.exists_of_map_ofString hlimits
  obtain ⟨hlimit, hk⟩ := Prod.mk.inj hpair
  have hpast : config.search.maxLimit < config.search.hybrid.calibrationK := by
    rw [hlimit, hk]
    decide
  refine ⟨config, hread, ?_⟩
  rw [← hlimit]
  exact calibrate_cutoff (s := ⟨config, .lite⟩) (Config.checked_of_ofString hread)
    (List.cons_ne_nil _ _) hpast "notes"

end Service

end KnowledgeSearch
