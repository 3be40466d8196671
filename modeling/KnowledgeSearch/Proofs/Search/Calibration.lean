/-
  KnowledgeSearch/Proofs/Search/Calibration.lean
  ==============================================
  **Calibration is sound, and it chooses weights only when it succeeds.**

  A calibration that succeeds has read one statement for each sample, in order, and then chosen
  the weights of the best of its points, of which there is one for each value of the grid
  (`Service.calibration_sound`).  That the one point found by going through all of them is the
  first that no other point exceeds (`CalibrationPoint.best_splits`) needs the F1 values to be
  numbers, since nothing compares with a nan.  They are: hits are bounded by the cut-off, and
  whatever is computed of them stays below a finite bound (`Retrieval.upTo_f1`,
  `FetchedSample.upTo_mean`), even where a key is found more than once and recall passes one.

  It succeeds whenever nothing is wrong with it and no call fails (`Service.calibrate_ok_iff`):
  values of the unit interval always come to weights (`FetchedSample.point_of_isUnit`), so after
  the last sample is read nothing can go wrong any more.
-/
import KnowledgeSearch.Proofs.Numeric.Bound
import KnowledgeSearch.Proofs.Search.FailFast

namespace KnowledgeSearch

open Format (binary32)
open Binary (UpTo powerOrdinal)

/-! ### Measures are numbers -/

namespace Retrieval

variable {k : Nat}

theorem hits_le (retrieved relevant : List String) (k : Nat) : hits retrieved relevant k ≤ k :=
  List.countP_le_length.trans (List.length_take_le _ _)

theorem upTo_hits (retrieved relevant : List String) (hk : k ≤ 2 ^ 32) :
    (Binary.ofNat (hits retrieved relevant k) : Single).UpTo (powerOrdinal 32) :=
  Binary.upTo_ofNat ((hits_le retrieved relevant k).trans hk)

theorem upTo_precisionAt (retrieved relevant : List String) (hk : k ≤ 2 ^ 32) :
    (precisionAt retrieved relevant k).UpTo (powerOrdinal 32) := by
  unfold precisionAt
  split
  · exact Binary.upTo_zero
  · rename_i hpositive
    exact (upTo_hits retrieved relevant hk).div_ofNat
      (Binary.powerOrdinal_lt_infinity (by decide)) (Nat.pos_of_ne_zero hpositive)

theorem upTo_recallAt (retrieved relevant : List String) (hk : k ≤ 2 ^ 32) :
    (recallAt retrieved relevant k).UpTo (powerOrdinal 32) := by
  unfold recallAt
  split
  · exact Binary.upTo_ofNat (n := 1) (by decide)
  · rename_i hsome
    have hkeys : 0 < relevant.eraseDups.length := by
      cases relevant with
      | nil => exact absurd rfl hsome
      | cons key others => simp [List.eraseDups_cons]
    exact (upTo_hits retrieved relevant hk).div_ofNat
      (Binary.powerOrdinal_lt_infinity (by decide)) hkeys

/-- The harmonic mean is a part of twice the precision. -/
theorem upTo_f1 {p r : Single} (hp : p.UpTo (powerOrdinal 32)) (hr : r.UpTo (powerOrdinal 32)) :
    (f1 p r).UpTo (powerOrdinal 33) := by
  unfold f1
  split
  · exact Binary.upTo_zero
  · rename_i hpositive
    have htwo : (Binary.ofNat 2 : Single).UpTo (powerOrdinal 1) := Binary.upTo_ofNat le_rfl
    have hdouble : (Binary.ofNat 2 * p).UpTo (powerOrdinal (1 + 32)) :=
      htwo.mul hp (by decide) (by decide)
    exact hdouble.mul_div_add hp hr (by decide) (Bool.eq_false_iff.mpr hpositive)

end Retrieval

namespace FetchedSample

/-- The mean of small numbers is finite, however many there are. -/
theorem upTo_mean {values : List Single} (hsome : values ≠ [])
    (h : ∀ x ∈ values, x.UpTo (powerOrdinal 33)) :
    (mean values).UpTo (binary32.infinity - 1) :=
  (Binary.UpTo.sum_small h Binary.upTo_zero).div_ofNat (by decide) (List.length_pos_iff.mpr hsome)

theorem point_isNumber {table : String} {k : Nat} {samples : List FetchedSample} {weight : Single}
    {point : CalibrationPoint} (hsome : samples ≠ []) (hk : k ≤ 2 ^ 32)
    (h : FetchedSample.point table k samples weight = .ok point) : point.f1.isNaN = false := by
  obtain ⟨weights, -, h⟩ := bind_eq_ok h
  cases h
  apply Binary.UpTo.isNaN_eq_false
  apply upTo_mean
  · simpa using hsome
  · intro x hx
    simp only [List.mem_map] at hx
    obtain ⟨_, ⟨sample, -, rfl⟩, rfl⟩ := hx
    exact Retrieval.upTo_f1 (Retrieval.upTo_precisionAt _ _ hk) (Retrieval.upTo_recallAt _ _ hk)

end FetchedSample

/-! ### Values of the grid -/

theorem not_weightDefect {x : Single} (hfinite : x.isFinite = true) (hx : Binary.zero.le x = true) :
    ¬WeightDefect (some x) :=
  not_weightDefect_iff.mpr
    ⟨hfinite, (Binary.not_lt_iff (Binary.isNaN_of_isFinite hfinite) rfl).mpr hx⟩

/-- A value of the unit interval and what it leaves to one are weights. -/
theorem FetchedSample.point_of_isUnit {weight : Single} (h : Service.isUnit weight = true)
    (table : String) (k : Nat) (samples : List FetchedSample) :
    ∃ point, FetchedSample.point table k samples weight = .ok point := by
  unfold Service.isUnit at h
  rw [Bool.and_eq_true] at h
  obtain ⟨hpositive, hle⟩ := h
  have hone : (Binary.one : Single).UpTo (powerOrdinal 0) := Binary.upTo_ofNat (n := 1) le_rfl
  have hlimit : powerOrdinal 0 < binary32.infinity := Binary.powerOrdinal_lt_infinity (by decide)
  have hrest : (Binary.one - weight).UpTo (powerOrdinal 0) := hone.sub hlimit hpositive hle
  obtain ⟨weights, hweights⟩ := normalized_of_valid
    (not_weightDefect (hrest.isFinite hlimit) hrest.zero_le)
    (not_weightDefect (Binary.isFinite_of_between hone hlimit hpositive hle) hpositive)
  unfold FetchedSample.point
  rw [hweights]
  exact ⟨_, rfl⟩

/-! ### The best point -/

namespace CalibrationPoint

/-- The first point that no other point exceeds. -/
def leader? (points : List CalibrationPoint) : Option CalibrationPoint :=
  points.find? fun point => points.all fun other => !point.f1.lt other.f1

theorem best_concat (first : CalibrationPoint) (others : List CalibrationPoint)
    (next : CalibrationPoint) :
    best first (others ++ [next]) =
      if (best first others).f1.lt next.f1 then next else best first others := by
  rw [best, List.foldl_append]
  rfl

/-- No point exceeds the best one, which exceeds all that stand before it.  This is what going
    through the points keeps, so the induction adds a point at their end. -/
theorem best_splits {first : CalibrationPoint} {others : List CalibrationPoint}
    (hnumbers : ∀ point ∈ first :: others, point.f1.isNaN = false) :
    ∃ earlier later, first :: others = earlier ++ best first others :: later ∧
      (∀ point ∈ earlier, point.f1.lt (best first others).f1 = true) ∧
      ∀ point ∈ first :: others, (best first others).f1.lt point.f1 = false := by
  induction others using List.reverseRecOn with
  | nil => exact ⟨[], [], rfl, nofun, by simp [best, Binary.lt_irrefl]⟩
  | append_singleton others next ih =>
    rw [← List.cons_append] at hnumbers ⊢
    simp only [List.forall_mem_append, List.forall_mem_singleton] at hnumbers ⊢
    obtain ⟨hnumbers, hnext⟩ := hnumbers
    obtain ⟨earlier, later, hsplit, hexceeded, hleads⟩ := ih hnumbers
    rw [best_concat]
    split
    · -- the new point exceeds the best of those before it, and so all of them
      rename_i hlt
      have hbest : (best first others).f1.isNaN = false := by
        apply hnumbers
        rw [hsplit]
        simp
      have hpassed : ∀ point ∈ first :: others, point.f1.lt next.f1 = true := by
        intro point hpoint
        exact Binary.lt_of_not_lt_of_lt (hleads point hpoint) hlt hbest (hnumbers point hpoint)
      refine ⟨first :: others, [], rfl, hpassed, ?_, Binary.lt_irrefl _⟩
      intro point hpoint
      exact Binary.lt_asymm (hpassed point hpoint)
    · rename_i hkept
      refine ⟨earlier, later ++ [next], ?_, hexceeded, hleads, Bool.eq_false_iff.mpr hkept⟩
      rw [hsplit, List.append_assoc, List.cons_append]

theorem leader?_eq_best {first : CalibrationPoint} {others : List CalibrationPoint}
    (hnumbers : ∀ point ∈ first :: others, point.f1.isNaN = false) :
    leader? (first :: others) = some (best first others) := by
  obtain ⟨earlier, later, hsplit, hexceeded, hbest⟩ := best_splits hnumbers
  unfold leader?
  rw [List.find?_eq_some_iff_append]
  refine ⟨?_, earlier, later, hsplit, ?_⟩
  · simpa using hbest
  · intro point hpoint
    have hmem : best first others ∈ first :: others := by
      rw [hsplit]
      simp
    simp only [Bool.not_eq_true', List.all_eq_false]
    exact ⟨best first others, hmem, by simpa using hexceeded point hpoint⟩

end CalibrationPoint

/-! ### Whole calibrations -/

namespace Service

variable {s : Service} {table : String} {samples : List CalibrationSample}

/-- What a calibration that succeeds has done and reports, given what it read of its samples. -/
structure Calibrated (s : Service) (table : String) (samples : List CalibrationSample)
    (grid : List Single) (k : UInt32) (readings : List (Exchange × FetchedSample))
    (trace : List Exchange) (report : CalibrationReport) : Prop where
  /-- Each sample was read with one statement, in order. -/
  sampled : List.Forall₂ (s.Sampled table) samples readings
  /-- Nothing else was done, but that the weights of the best point were chosen in the end. -/
  trace_eq : trace = readings.map Prod.fst ++ [.chose report.best.weights]
  /-- Each value of the grid has its point, in order. -/
  scored : List.Forall₂ (fun weight point => FetchedSample.point table k.toNat
    (readings.map Prod.snd) weight = .ok point) grid report.points
  leads : CalibrationPoint.leader? report.points = some report.best

theorem CalibrationRun.calibrated_of_ok {grid : List Single} {k : UInt32} {trace : List Exchange}
    {report : CalibrationReport} (h : CalibrationRun s table samples grid k trace (.ok report)) :
    ∃ readings, s.Calibrated table samples grid k readings trace report := by
  cases h with
  | @calibrated _ _ first others hcheck hfetched hpoints =>
    obtain ⟨readings, hsampled, rfl, rfl⟩ := NumberedRun.readings hfetched
    rw [List.zipIdx_map_fst] at hsampled
    have hscored := forall₂_of_mapM_eq_ok hpoints
    have hsome : readings.map Prod.snd ≠ [] := by
      rintro hnone
      obtain rfl : readings = [] := List.map_eq_nil_iff.mp hnone
      cases hsampled
      exact absurd rfl (checkCalibration_ok_iff.mp hcheck).1
    have hnumbers : ∀ point ∈ first :: others, point.f1.isNaN = false := by
      intro point hpoint
      obtain ⟨weight, -, hscore⟩ := exists_of_forall₂_of_mem hscored hpoint
      exact FetchedSample.point_isNumber hsome k.toNat_lt.le hscore
    exact ⟨readings, hsampled, rfl, hscored, CalibrationPoint.leader?_eq_best hnumbers⟩

/-- What can be wrong with a calibration. -/
inductive CalibrationDefect (s : Service) (table : String) (samples : List CalibrationSample)
    (grid : List Single) (k : UInt32) : Prop where
  | noSamples (h : samples = [])
  | noGrid (h : grid = [])
  | gridValue {weight : Single} (mem : weight ∈ grid) (h : isUnit weight = false)
  | cutoff (h : k = 0 ∨ s.config.search.maxLimit < k)
  | sample {sample : CalibrationSample} (mem : sample ∈ samples)
      (h : s.SubjectDefect table sample.query sample.embedding none none)

theorem checkCalibration_of_valid {grid : List Single} {k : UInt32}
    (h : ¬s.CalibrationDefect table samples grid k) :
    s.checkCalibration samples grid k = .ok () := by
  rw [checkCalibration_ok_iff]
  refine ⟨fun hnone => h (.noSamples hnone), fun hnone => h (.noGrid hnone), ?_, ?_, ?_⟩
  · intro weight hmem
    by_contra houtside
    exact h (.gridValue hmem (Bool.eq_false_iff.mpr houtside))
  · exact fun hzero => h (.cutoff (.inl hzero))
  · exact UInt32.not_lt.mp fun hlarge => h (.cutoff (.inr hlarge))

/-- A sample without a defect is fetched, unless its statement fails. -/
theorem SampleRun.fetched_of_valid {sample : CalibrationSample} {trace : List Exchange}
    {outcome : Except SearchError FetchedSample} (h : SampleRun s table sample trace outcome)
    (hvalid : ¬s.SubjectDefect table sample.query sample.embedding none none)
    (hmeasures : s.Measures) (hfine : ∀ x ∈ trace, x.failure? = none) :
    ∃ fetched, outcome = .ok fetched := by
  cases h with
  | refused hrefused =>
    obtain ⟨p, hp⟩ := prepareHybrid_of_valid hvalid
    cases hp.symm.trans hrefused
  | asked hp hread =>
    obtain ⟨statement, hmade⟩ := candidates_of_measures hmeasures _
    cases hread with
    | refused hrefused => cases hmade.symm.trans hrefused
    | failed _ e =>
      have hfailed := hfine _ (List.mem_singleton_self _)
      cases hfailed
    | read => exact ⟨_, rfl⟩

theorem CalibrationRun.succeeds {grid : List Single} {k : UInt32} {trace : List Exchange}
    {outcome : Except SearchError CalibrationReport}
    (h : CalibrationRun s table samples grid k trace outcome)
    (hvalid : ¬s.CalibrationDefect table samples grid k) (hmeasures : s.Measures)
    (hfine : ∀ x ∈ trace, x.failure? = none) : ∃ report, outcome = .ok report := by
  have hcheck := checkCalibration_of_valid hvalid
  cases h with
  | refused hrefused => cases hcheck.symm.trans hrefused
  | unfetched _ hfetched =>
    obtain ⟨earlier, ⟨sample, i⟩, later, before, last, _, hparts, rfl, -, inner, hrun, houtcome⟩ :=
      hfetched.error_cases
    have hmem : sample ∈ samples := by
      have hpart : (sample, i) ∈ samples.zipIdx := by simp [hparts]
      exact List.fst_mem_of_mem_zipIdx hpart
    obtain ⟨fetched, rfl⟩ := hrun.fetched_of_valid (fun hdefect => hvalid (.sample hmem hdefect))
      hmeasures fun x hx => hfine x (List.mem_append_right _ hx)
    cases houtcome
  | unscored _ _ hrefused =>
    obtain ⟨points, hpoints⟩ := exists_mapM_eq_ok fun weight hmem =>
      FetchedSample.point_of_isUnit ((checkCalibration_ok_iff.mp hcheck).2.2.1 weight hmem) table
        k.toNat _
    cases hpoints.symm.trans hrefused
  | calibrated => exact ⟨_, rfl⟩

theorem CalibrationRun.valid_of_ok {grid : List Single} {k : UInt32} {trace : List Exchange}
    {report : CalibrationReport} (h : CalibrationRun s table samples grid k trace (.ok report)) :
    ¬s.CalibrationDefect table samples grid k := by
  intro hdefect
  cases h with
  | calibrated hcheck hfetched =>
    obtain ⟨hsamples, hgrid, hunits, hzero, hmax⟩ := checkCalibration_ok_iff.mp hcheck
    obtain ⟨readings, hsampled, -, -⟩ := NumberedRun.readings hfetched
    rw [List.zipIdx_map_fst] at hsampled
    cases hdefect with
    | noSamples h => exact hsamples h
    | noGrid h => exact hgrid h
    | gridValue mem h =>
      rw [hunits _ mem] at h
      cases h
    | cutoff h => exact h.elim hzero (UInt32.not_lt.mpr hmax)
    | sample mem h =>
      obtain ⟨reading, -, p, _, _, hp, -⟩ := exists_of_forall₂_of_mem hsampled.flip mem
      exact h.rejects p hp

section Outcome

variable {σ : Type} {m : Machine σ} {given : Option (List Single)} {cutoff : Option UInt32}

theorem calibrate_of_ok {report : CalibrationReport}
    (h : ((s.calibrate table samples given cutoff).run.run m).1 = .ok report) :
    (∃ readings, s.Calibrated table samples (given.getD s.config.search.hybrid.calibrationGrid)
      (cutoff.getD s.config.search.hybrid.calibrationK) readings
      ((s.calibrate table samples given cutoff).run.trace m) report) ∧
    ((s.calibrate table samples given cutoff).run.run m).2.service.weights =
      report.best.weights := by
  have hruns := (s.calibrate table samples given cutoff).runs_trace m
  rw [h] at hruns
  obtain ⟨readings, hcalibrated⟩ := (calibrate_runs hruns).calibrated_of_ok
  refine ⟨⟨readings, hcalibrated⟩, ?_⟩
  -- the last action chose the weights
  rw [Program.run_after, hcalibrated.trace_eq, Machine.after, List.foldl_append]
  rfl

theorem calibrate_of_error {e : SearchError}
    (h : ((s.calibrate table samples given cutoff).run.run m).1 = .error e) :
    ((s.calibrate table samples given cutoff).run.run m).2.service.weights =
      m.service.weights := by
  have hsurfaces := calibrate_surfaces ((s.calibrate table samples given cutoff).runs_trace m)
  rw [h] at hsurfaces
  rw [Program.run_after]
  exact (m.retained_after hsurfaces.unwritten).weights

theorem calibrate_ok_iff (hmeasures : s.Measures) :
    (∃ report, ((s.calibrate table samples given cutoff).run.run m).1 = .ok report) ↔
      ¬s.CalibrationDefect table samples (given.getD s.config.search.hybrid.calibrationGrid)
        (cutoff.getD s.config.search.hybrid.calibrationK) ∧
      ∀ x ∈ (s.calibrate table samples given cutoff).run.trace m, x.failure? = none := by
  have hruns := (s.calibrate table samples given cutoff).runs_trace m
  constructor
  · rintro ⟨report, hreport⟩
    rw [hreport] at hruns
    exact ⟨(calibrate_runs hruns).valid_of_ok, calibrate_surfaces hruns⟩
  · rintro ⟨hvalid, hfine⟩
    exact (calibrate_runs hruns).succeeds hvalid hmeasures hfine

end Outcome

/-- **Calibration is sound and atomic.**  If it succeeds, it has read each sample once and reports
    a point for each value of the grid; the best of them is the first that no other exceeds, and
    its weights are now the default.  If it fails, at whatever point, the default is as before.
    With a metric that the dialect has, it fails for a defect or a failure of storage only. -/
theorem calibration_sound {σ : Type} (s : Service) (m : Machine σ) (table : String)
    (samples : List CalibrationSample) (given : Option (List Single)) (cutoff : Option UInt32) :
    let calibration := (s.calibrate table samples given cutoff).run
    let grid := given.getD s.config.search.hybrid.calibrationGrid
    let k := cutoff.getD s.config.search.hybrid.calibrationK
    (∀ report, (calibration.run m).1 = .ok report →
      (∃ readings, s.Calibrated table samples grid k readings (calibration.trace m) report) ∧
        (calibration.run m).2.service.weights = report.best.weights) ∧
    (∀ e, (calibration.run m).1 = .error e →
      (calibration.run m).2.service.weights = m.service.weights) ∧
    (s.Measures → ((∃ report, (calibration.run m).1 = .ok report) ↔
      ¬s.CalibrationDefect table samples grid k ∧
        ∀ x ∈ calibration.trace m, x.failure? = none)) := by
  intro calibration grid k
  exact ⟨fun _ => calibrate_of_ok, fun _ => calibrate_of_error, calibrate_ok_iff⟩

/-! ### Notes, over a connection that breaks -/

/-- Notes that are to be found by some queries, and two values to try. -/
def notesCalibration (queries : List String) : Search CalibrationReport :=
  notesService.calibrate "notes" (queries.map fun query => ⟨query, none, []⟩) (some [.zero, .one])
    none

/-- With one sample the connection holds, and weights are chosen.  With two samples it breaks,
    and the weights are kept. -/
theorem calibration_sound_notes :
    (∃ report, ((notesCalibration ["sea"]).run.run breakingMachine).1 = .ok report ∧
      CalibrationPoint.leader? report.points = some report.best ∧
      ((notesCalibration ["sea"]).run.run breakingMachine).2.service.weights =
        report.best.weights) ∧
    (∃ e, ((notesCalibration ["sea", "sky"]).run.run breakingMachine).1 = .error e ∧
      ((notesCalibration ["sea", "sky"]).run.run breakingMachine).2.service.weights =
        breakingMachine.service.weights) ∧
    notesService.Measures ∧
      ¬notesService.CalibrationDefect "notes" [⟨"sea", none, []⟩] [.zero, .one]
        notesService.config.search.hybrid.calibrationK := by
  have hsucceeds : ((notesCalibration ["sea"]).run.run breakingMachine).1.isOk = true := by
    decide
  have hfails : ((notesCalibration ["sea", "sky"]).run.run breakingMachine).1.isOk = false := by
    decide
  have hcases (outcome : Except SearchError CalibrationReport) :
      (outcome.isOk = true → ∃ report, outcome = .ok report) ∧
        (outcome.isOk = false → ∃ e, outcome = .error e) := by
    cases outcome with
    | ok report => exact ⟨fun _ => ⟨report, rfl⟩, nofun⟩
    | error e => exact ⟨nofun, fun _ => ⟨e, rfl⟩⟩
  have hmeasures : notesService.Measures := by
    unfold Measures
    decide
  obtain ⟨report, hreport⟩ := (hcases _).1 hsucceeds
  obtain ⟨e, he⟩ := (hcases _).2 hfails
  obtain ⟨hsound, -, hsucceeds_iff⟩ := calibration_sound notesService breakingMachine "notes"
    [⟨"sea", none, []⟩] (some [.zero, .one]) none
  obtain ⟨-, hatomic, -⟩ := calibration_sound notesService breakingMachine "notes"
    [⟨"sea", none, []⟩, ⟨"sky", none, []⟩] (some [.zero, .one]) none
  obtain ⟨⟨_, hcalibrated⟩, hweights⟩ := hsound report hreport
  exact ⟨⟨report, hreport, hcalibrated.leads, hweights⟩, ⟨e, he, hatomic e he⟩, hmeasures,
    ((hsucceeds_iff hmeasures).mp ⟨report, hreport⟩).1⟩

end Service

end KnowledgeSearch
