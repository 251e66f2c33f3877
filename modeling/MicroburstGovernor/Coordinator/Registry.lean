import MicroburstGovernor.Coordinator.Accounting

/-! The worker registry: what its records say against the sessions admitted under each worker.

    The registry is keyed by worker and a session is known by its channel, so a worker that connects
    again has two sessions and one record. A finish marks the record whichever of them it is. -/

namespace Mbg

namespace Deployment

/-- Session `id` was admitted as `w`. -/
def AdmittedAs (d : Deployment) (id : ℕ) (w : WorkerId) (s : Session) : Prop :=
  d.sessions[id]? = some s ∧ s.registered = true ∧ s.worker = w

/-- The session most recently admitted as `w`. -/
def lastAdmitted (d : Deployment) (w : WorkerId) : Option ℕ :=
  ((d.admissions.filter fun a => a.1 = w).getLast?).map Prod.snd

/-- The most recently admitted session of `w` has ended without a goodbye. -/
def LastEndedUngracefully (d : Deployment) (w : WorkerId) : Prop :=
  ∃ id s, d.lastAdmitted w = some id ∧ d.sessions[id]? = some s ∧ s.endedUngracefully = true

/-- Some session admitted as `w` has not finished. -/
def SomeUnfinished (d : Deployment) (w : WorkerId) : Prop :=
  ∃ id s, d.AdmittedAs id w s ∧ s.finished = false

/-- What the record of a worker says is so. -/
structure RecordTrue (d : Deployment) (w : WorkerId) (record : WorkerRecord) : Prop where
  connected : record.connected = true ↔ d.SomeUnfinished w
  fenced : record.fenced = true → d.LastEndedUngracefully w

/-- Every record of the registry is so. -/
def RegistryTrue (d : Deployment) : Prop :=
  ∀ w record, d.coordinator.workers.find? w = some record → d.RecordTrue w record

/-- The condition on a step: a session that finishes as `w` leaves no other session of `w`
    unfinished, and if it finishes without a goodbye it is the most recently admitted one of `w`, or
    that one ended so too. -/
def FinishesAlone (d : Deployment) : Act → Prop
  | .session id _ => ∀ s graceful, d.sessions[id]? = some s → s.registered = true →
      s.phase = .finishing graceful →
      (∀ j t, j ≠ id → d.AdmittedAs j s.worker t → t.finished = true) ∧
        (graceful = false → d.lastAdmitted s.worker = some id ∨ d.LastEndedUngracefully s.worker)
  | _ => True

/-! ### What a record depends on -/

theorem RecordTrue.transfer {d d' : Deployment} {w : WorkerId} {record record' : WorkerRecord}
    (h : d.RecordTrue w record) (hconnected : record'.connected = record.connected)
    (hfenced : record'.fenced = record.fenced) (hsome : d'.SomeUnfinished w ↔ d.SomeUnfinished w)
    (hlast : d.LastEndedUngracefully w → d'.LastEndedUngracefully w) : d'.RecordTrue w record' where
  connected := by rw [hconnected, h.connected, hsome]
  fenced hf := hlast (h.fenced (hfenced ▸ hf))

/-- Marks that stay, over sessions whose standing stays, stay true. -/
theorem RegistryTrue.transfer {d d' : Deployment} (h : d.RegistryTrue)
    (hmarks : ∀ w, d'.coordinator.marks w = d.coordinator.marks w)
    (hsome : ∀ w, d'.SomeUnfinished w ↔ d.SomeUnfinished w)
    (hlast : ∀ w, d.LastEndedUngracefully w → d'.LastEndedUngracefully w) : d'.RegistryTrue := by
  intro w record' hfind
  have hmark := hmarks w
  rw [Coordinator.marks, Coordinator.marks, hfind, Option.map_some] at hmark
  cases hold : d.coordinator.workers.find? w with
  | none =>
    rw [hold] at hmark
    cases hmark
  | some record =>
    rw [hold, Option.map_some, Option.some.injEq, Prod.mk.injEq] at hmark
    exact (h w record hold).transfer hmark.1 hmark.2 (hsome w) (hlast w)

theorem endedUngracefully_finished {s : Session} (h : s.endedUngracefully = true) :
    s.finished = true := by
  unfold Session.endedUngracefully at h
  unfold Session.finished
  split at h
  · rfl
  · rfl
  · cases h

section

variable {d : Deployment} {id : ℕ} {s s' : Session} {c' : Coordinator}
  {admissions : List (WorkerId × ℕ)}

/-- The deployment after session `id` has moved on to `s'`. -/
def moved (d : Deployment) (c' : Coordinator) (id : ℕ) (s' : Session)
    (admissions : List (WorkerId × ℕ)) : Deployment :=
  { d with coordinator := c', sessions := d.sessions.set id s', admissions }

theorem moved_get_ne {j : ℕ} (h : j ≠ id) :
    (d.moved c' id s' admissions).sessions[j]? = d.sessions[j]? :=
  List.getElem?_set_ne (fun heq => h heq.symm)

theorem moved_get_self (hs : d.sessions[id]? = some s) :
    (d.moved c' id s' admissions).sessions[id]? = some s' :=
  List.getElem?_set_self (List.getElem?_eq_some_iff.mp hs).1

theorem moved_admittedAs_ne {j : ℕ} (h : j ≠ id) {w : WorkerId} {t : Session} :
    (d.moved c' id s' admissions).AdmittedAs j w t ↔ d.AdmittedAs j w t := by
  rw [AdmittedAs, AdmittedAs, moved_get_ne h]

/-- A session whose standing as `w` stays. -/
theorem moved_someUnfinished (hs : d.sessions[id]? = some s) {w : WorkerId}
    (hself : (s'.registered = true ∧ s'.worker = w) ∧ s'.finished = false ↔
      (s.registered = true ∧ s.worker = w) ∧ s.finished = false) :
    (d.moved c' id s' admissions).SomeUnfinished w ↔ d.SomeUnfinished w := by
  constructor
  · rintro ⟨j, t, hadmitted, hfinished⟩
    by_cases hj : j = id
    · subst hj
      obtain ⟨hget, hstanding⟩ := hadmitted
      rw [moved_get_self hs] at hget
      obtain rfl := Option.some.inj hget
      obtain ⟨hstanding', hfinished'⟩ := hself.mp ⟨hstanding, hfinished⟩
      exact ⟨j, s, ⟨hs, hstanding'⟩, hfinished'⟩
    · exact ⟨j, t, (moved_admittedAs_ne hj).mp hadmitted, hfinished⟩
  · rintro ⟨j, t, hadmitted, hfinished⟩
    by_cases hj : j = id
    · subst hj
      obtain ⟨hget, hstanding⟩ := hadmitted
      rw [hs] at hget
      obtain rfl := Option.some.inj hget
      obtain ⟨hstanding', hfinished'⟩ := hself.mpr ⟨hstanding, hfinished⟩
      exact ⟨j, s', ⟨moved_get_self hs, hstanding'⟩, hfinished'⟩
    · exact ⟨j, t, (moved_admittedAs_ne hj).mpr hadmitted, hfinished⟩

theorem moved_lastEnded (hs : d.sessions[id]? = some s) {w : WorkerId}
    (hadmissions : (d.moved c' id s' admissions).lastAdmitted w = d.lastAdmitted w)
    (hself : s.endedUngracefully = true → s'.endedUngracefully = true)
    (h : d.LastEndedUngracefully w) : (d.moved c' id s' admissions).LastEndedUngracefully w := by
  obtain ⟨j, t, hlast, hget, hended⟩ := h
  by_cases hj : j = id
  · subst hj
    rw [hs] at hget
    obtain rfl := Option.some.inj hget
    exact ⟨j, s', hadmissions.trans hlast, moved_get_self hs, hself hended⟩
  · exact ⟨j, t, hadmissions.trans hlast, (moved_get_ne hj).trans hget, hended⟩

/-! ### Steps -/

/-- Every admitted session has a record. -/
def Known (d : Deployment) : Prop :=
  ∀ id w s, d.AdmittedAs id w s → ∃ record, d.coordinator.workers.find? w = some record

theorem exists_of_marks {c c' : Coordinator} {w : WorkerId} (hmarks : c'.marks w = c.marks w)
    (h : ∃ record, c.workers.find? w = some record) :
    ∃ record, c'.workers.find? w = some record := by
  rw [← Option.isSome_iff_exists] at h ⊢
  have hsome := congrArg Option.isSome hmarks
  rw [Coordinator.marks, Coordinator.marks, Option.isSome_map, Option.isSome_map] at hsome
  rw [hsome, h]

/-- A move that neither finishes nor admits leaves the registry as true as it was. -/
theorem registryTrue_steady (hs : d.sessions[id]? = some s)
    (hmarks : ∀ w, c'.marks w = d.coordinator.marks w) (hregistered : s'.registered = s.registered)
    (hworker : s'.worker = s.worker) (hfinished : s'.finished = s.finished)
    (hended : s.endedUngracefully = true → s'.endedUngracefully = true)
    (h : d.RegistryTrue) (hknown : d.Known) :
    (d.moved c' id s' d.admissions).RegistryTrue ∧ (d.moved c' id s' d.admissions).Known := by
  constructor
  · refine h.transfer hmarks (fun w => moved_someUnfinished hs ?_)
      (fun w => moved_lastEnded hs rfl hended)
    rw [hregistered, hworker, hfinished]
  · rintro j w t ⟨hget, hstanding⟩
    refine exists_of_marks (hmarks w) ?_
    by_cases hj : j = id
    · subst hj
      rw [moved_get_self hs] at hget
      obtain rfl := Option.some.inj hget
      rw [hregistered, hworker] at hstanding
      exact hknown j w s ⟨hs, hstanding⟩
    · rw [moved_get_ne hj] at hget
      exact hknown j w t ⟨hget, hstanding⟩

/-- An admission makes a true record, whatever record there was. -/
theorem registryTrue_admitted (hs : d.sessions[id]? = some s) (hopening : s.opening = true)
    (hunregistered : s.registered = false) {hello : HelloRequest}
    (hregistered : s'.registered = true) (hworker : s'.worker = hello.worker)
    (hfinished : s'.finished = false) (h : d.RegistryTrue) (hknown : d.Known) :
    let d' := d.moved (d.coordinator.acceptWorker hello) id s' (d.admissions ++ [(hello.worker, id)])
    d'.RegistryTrue ∧ d'.Known := by
  intro d'
  have hfind : ∀ w, d'.coordinator.workers.find? w = if w = hello.worker then
      some (Coordinator.admittedRecord hello) else d.coordinator.workers.find? w :=
    fun w => UnorderedMap.find?_assign _ _ _ _ w
  have hlast : ∀ w, w ≠ hello.worker → d'.lastAdmitted w = d.lastAdmitted w := by
    intro w hw
    have hne : ¬ hello.worker = w := fun heq => hw heq.symm
    have hskip : [(hello.worker, id)].filter (fun a => a.1 = w) = [] := by
      simp [hne]
    rw [lastAdmitted, lastAdmitted]
    change ((List.filter _ (d.admissions ++ [(hello.worker, id)])).getLast?).map _ = _
    rw [List.filter_append, hskip, List.append_nil]
  have hnotEnded : s.endedUngracefully = true → s'.endedUngracefully = true := by
    intro hended
    have hdone := endedUngracefully_finished hended
    unfold Session.finished at hdone
    unfold Session.opening at hopening
    split at hdone
    · rename_i hphase
      rw [hphase] at hopening
      cases hopening
    · rename_i hphase
      rw [hphase] at hopening
      cases hopening
    · cases hdone
  constructor
  · intro w record hrecord
    rw [hfind] at hrecord
    by_cases hw : w = hello.worker
    · rw [if_pos hw, Option.some.injEq] at hrecord
      subst hrecord
      refine ⟨iff_of_true rfl ⟨id, s', ⟨moved_get_self hs, hregistered, ?_⟩, hfinished⟩, ?_⟩
      · rw [hworker, hw]
      · exact fun hfenced => (Bool.false_ne_true hfenced).elim
    · rw [if_neg hw] at hrecord
      refine (h w record hrecord).transfer rfl rfl (moved_someUnfinished hs ?_)
        (moved_lastEnded hs (hlast w hw) hnotEnded)
      rw [hunregistered, hworker]
      constructor
      · rintro ⟨⟨-, heq⟩, -⟩
        exact absurd heq.symm hw
      · rintro ⟨⟨hfalse, -⟩, -⟩
        cases hfalse
  · rintro j w t ⟨hget, hreg, hworker'⟩
    rw [hfind]
    by_cases hw : w = hello.worker
    · exact ⟨_, if_pos hw⟩
    · rw [if_neg hw]
      have hj : j ≠ id := by
        rintro rfl
        rw [moved_get_self hs] at hget
        obtain rfl := Option.some.inj hget
        exact hw (hworker'.symm.trans hworker)
      rw [moved_get_ne hj] at hget
      exact hknown j w t ⟨hget, hreg, hworker'⟩

/-- A finish leaves the registry true exactly when the session finishes alone. -/
theorem registryTrue_finished (hs : d.sessions[id]? = some s) {graceful : Bool}
    (hphase : s.phase = .finishing graceful) (h : d.RegistryTrue) (hknown : d.Known) :
    let c' := d.coordinator.finishSession s.registered s.worker graceful
    let d' := d.moved c' id (s.goto (.retiring graceful)) d.admissions
    d'.Known ∧ (d'.RegistryTrue ↔ (s.registered = true →
      (∀ j t, j ≠ id → d.AdmittedAs j s.worker t → t.finished = true) ∧
        (graceful = false →
          d.lastAdmitted s.worker = some id ∨ d.LastEndedUngracefully s.worker))) := by
  intro c' d'
  have hself : d'.sessions[id]? = some (s.goto (.retiring graceful)) := moved_get_self hs
  have hfinishing : s.finished = false := by rw [Session.finished, hphase]
  have hnotEnded : s.endedUngracefully = false := by rw [Session.endedUngracefully, hphase]
  cases hreg : s.registered with
  | false =>
    have hc : c' = d.coordinator := by
      change d.coordinator.finishSession s.registered s.worker graceful = d.coordinator
      rw [hreg]
      rfl
    have hout : ∀ w, d'.SomeUnfinished w ↔ d.SomeUnfinished w := by
      intro w
      refine moved_someUnfinished hs ?_
      simp only [Session.goto, hreg, Bool.false_eq_true, false_and]
    refine ⟨?_, iff_of_true ?_ (fun hfalse => by cases hfalse)⟩
    · rintro j w t ⟨hget, hreg', hworker⟩
      change ∃ record, c'.workers.find? w = some record
      rw [hc]
      have hj : j ≠ id := by
        rintro rfl
        rw [hself] at hget
        obtain rfl := Option.some.inj hget
        rw [Session.goto, hreg] at hreg'
        cases hreg'
      rw [moved_get_ne hj] at hget
      exact hknown j w t ⟨hget, hreg', hworker⟩
    · refine h.transfer (fun w => ?_) hout (fun w => moved_lastEnded hs rfl ?_)
      · change c'.marks w = _
        rw [hc]
      · rw [hnotEnded]
        exact fun hfalse => by cases hfalse
  | true =>
    obtain ⟨record, hrecord⟩ := hknown id s.worker s ⟨hs, hreg, rfl⟩
    obtain ⟨changed, hfind, hconnected, hfenced⟩ : ∃ changed : WorkerRecord,
        (∀ w, c'.workers.find? w =
          if w = s.worker then some changed else d.coordinator.workers.find? w) ∧
          changed.connected = false ∧ changed.fenced = !graceful := by
      have hmem : s.worker ∈ d.coordinator.workers.keys :=
        UnorderedMap.mem_keys_of_mem (UnorderedMap.find?_eq_some.mp hrecord)
      refine ⟨{ record with
        connected := false
        fenced := !graceful
        fenceAttempt :=
          if graceful then record.fenceAttempt
          else ⟨hashCombine s.worker.raw (record.frames + 1)⟩ }, fun w => ?_, rfl, rfl⟩
      change (d.coordinator.finishSession s.registered s.worker graceful).workers.find? w = _
      rw [hreg, ← UnorderedMap.find?_update _ hmem]
      unfold Coordinator.finishSession Coordinator.touch
      rw [hrecord]
      rfl
    have hothers : ∀ w, w ≠ s.worker → ∀ r, d.RecordTrue w r → d'.RecordTrue w r := by
      intro w hw r hr
      refine hr.transfer rfl rfl (moved_someUnfinished hs ?_) (moved_lastEnded hs rfl ?_)
      · constructor
        · rintro ⟨⟨-, heq⟩, -⟩
          exact absurd heq.symm hw
        · rintro ⟨⟨-, heq⟩, -⟩
          exact absurd heq.symm hw
      · rw [hnotEnded]
        exact fun hfalse => by cases hfalse
    have hsome : ¬ d'.SomeUnfinished s.worker ↔
        ∀ j t, j ≠ id → d.AdmittedAs j s.worker t → t.finished = true := by
      constructor
      · intro hnone j t hj hadmitted
        by_contra hnot
        rw [Bool.not_eq_true] at hnot
        exact hnone ⟨j, t, (moved_admittedAs_ne hj).mpr hadmitted, hnot⟩
      · rintro hall ⟨j, t, hadmitted, hnot⟩
        by_cases hj : j = id
        · subst hj
          rw [AdmittedAs, hself] at hadmitted
          obtain rfl := Option.some.inj hadmitted.1
          cases hnot
        · rw [hall j t hj ((moved_admittedAs_ne hj).mp hadmitted)] at hnot
          cases hnot
    have hlast : graceful = false → (d'.LastEndedUngracefully s.worker ↔
        d.lastAdmitted s.worker = some id ∨ d.LastEndedUngracefully s.worker) := by
      rintro rfl
      constructor
      · rintro ⟨j, t, hlast, hget, hended⟩
        by_cases hj : j = id
        · exact Or.inl (hj ▸ hlast)
        · rw [moved_get_ne hj] at hget
          exact Or.inr ⟨j, t, hlast, hget, hended⟩
      · rintro (hlast | hlast)
        · exact ⟨id, _, hlast, hself, rfl⟩
        · refine moved_lastEnded hs rfl ?_ hlast
          rw [hnotEnded]
          exact fun hfalse => by cases hfalse
    refine ⟨?_, ?_⟩
    · rintro j w t ⟨hget, hreg', hworker⟩
      change ∃ record, c'.workers.find? w = some record
      rw [hfind]
      by_cases hw : w = s.worker
      · exact ⟨changed, if_pos hw⟩
      · rw [if_neg hw]
        have hj : j ≠ id := by
          rintro rfl
          rw [hself] at hget
          obtain rfl := Option.some.inj hget
          exact hw hworker.symm
        rw [moved_get_ne hj] at hget
        exact hknown j w t ⟨hget, hreg', hworker⟩
    · constructor
      · intro hlaw _
        obtain ⟨hconn, hfence⟩ := hlaw s.worker changed ((hfind _).trans (if_pos rfl))
        rw [hconnected] at hconn
        refine ⟨hsome.mp (fun hunfinished => by cases hconn.mpr hunfinished), fun hg => ?_⟩
        refine (hlast hg).mp (hfence ?_)
        rw [hfenced, hg]
        rfl
      · intro hcond w r hr
        change c'.workers.find? w = some r at hr
        rw [hfind] at hr
        by_cases hw : w = s.worker
        · rw [if_pos hw, Option.some.injEq] at hr
          obtain ⟨halone, hrecent⟩ := hcond rfl
          subst hr
          rw [hw]
          refine ⟨?_, fun hf => ?_⟩
          · rw [hconnected]
            exact iff_of_false Bool.false_ne_true (hsome.mpr halone)
          · rw [hfenced, Bool.not_eq_true'] at hf
            exact (hlast hf).mpr (hrecent hf)
        · rw [if_neg hw] at hr
          exact hothers w hw r (h w r hr)

end

variable {d d' : Deployment}

/-- A thread that has just been spawned is admitted as nobody. -/
theorem RegistryTrue.grown (h : d.RegistryTrue) (hknown : d.Known)
    (hworkers : d'.coordinator.workers = d.coordinator.workers)
    (hadmissions : d'.admissions = d.admissions)
    (hsessions : d'.sessions = d.sessions ∨ d'.sessions = d.sessions ++ [({} : Session)]) :
    d'.RegistryTrue ∧ d'.Known := by
  have hold : ∀ {i : ℕ} {t : Session}, d.sessions[i]? = some t → d'.sessions[i]? = some t := by
    intro i t hget
    rcases hsessions with heq | heq
    · rw [heq, hget]
    · rw [heq, List.getElem?_append_left (List.getElem?_eq_some_iff.mp hget).1, hget]
  have hadmitted : ∀ i w t, d'.AdmittedAs i w t ↔ d.AdmittedAs i w t := by
    intro i w t
    constructor
    · rintro ⟨hget, hreg, hworker⟩
      rcases hsessions with heq | heq
      · exact ⟨heq ▸ hget, hreg, hworker⟩
      · rw [heq] at hget
        rcases Nat.lt_or_ge i d.sessions.length with hi | hi
        · rw [List.getElem?_append_left hi] at hget
          exact ⟨hget, hreg, hworker⟩
        · rw [List.getElem?_append_right hi] at hget
          obtain ⟨_, rfl⟩ := List.getElem?_eq_some_iff.mp hget
          simp at hreg
    · rintro ⟨hget, hstanding⟩
      exact ⟨hold hget, hstanding⟩
  have hmarks : ∀ w, d'.coordinator.marks w = d.coordinator.marks w := by
    intro w
    rw [Coordinator.marks, hworkers, Coordinator.marks]
  constructor
  · refine h.transfer hmarks (fun w => ?_) (fun w hlost => ?_)
    · simp only [SomeUnfinished, hadmitted]
    · obtain ⟨i, t, hlast, hget, hended⟩ := hlost
      refine ⟨i, t, ?_, hold hget, hended⟩
      rw [lastAdmitted, hadmissions]
      exact hlast
  · intro i w t hstanding
    exact exists_of_marks (hmarks w) (hknown i w t ((hadmitted i w t).mp hstanding))

theorem registryTrue_accept (connection : Bool) (h : d.RegistryTrue) (hknown : d.Known) :
    (d.stepAccept connection).RegistryTrue ∧ (d.stepAccept connection).Known := by
  unfold Deployment.stepAccept
  dsimp only
  split
  · exact h.grown hknown rfl rfl (Or.inl rfl)
  · exact h.grown hknown rfl rfl (Or.inl rfl)
  · split_ifs <;> exact h.grown hknown rfl rfl (Or.inl rfl)
  · split_ifs <;> exact h.grown hknown rfl rfl (Or.inl rfl)
  · exact h.grown hknown rfl rfl (Or.inr rfl)
  · exact ⟨h, hknown⟩

theorem registryTrue_stop (h : d.RegistryTrue) (hknown : d.Known) :
    d.stepStop.RegistryTrue ∧ d.stepStop.Known := by
  unfold Deployment.stepStop
  dsimp only
  split
  · exact h.grown hknown rfl rfl (Or.inl rfl)
  · split_ifs <;> exact h.grown hknown rfl rfl (Or.inl rfl)
  · split_ifs <;> exact h.grown hknown rfl rfl (Or.inl rfl)
  · exact ⟨h, hknown⟩

/-- A step of a session leaves the registry true exactly when it does not finish beside another
    session of its worker. -/
theorem registryTrue_session (hb : d.Balanced) (h : d.RegistryTrue) (hknown : d.Known) (id : ℕ)
    (answer : Answer) : (d.FinishesAlone (.session id answer) ↔
      (d.stepSession id answer).RegistryTrue) ∧ (d.stepSession id answer).Known := by
  unfold Deployment.stepSession
  cases hs : d.sessions[id]? with
  | none =>
    refine ⟨iff_of_true (fun s graceful hget => ?_) h, hknown⟩
    rw [hs] at hget
    cases hget
  | some s =>
    by_cases hphase : ∃ graceful, s.phase = .finishing graceful
    · obtain ⟨graceful, hphase⟩ := hphase
      have hstep : s.step d.coordinator id answer =
          (d.coordinator.finishSession s.registered s.worker graceful,
            s.goto (.retiring graceful)) := by
        unfold Session.step
        rw [hphase]
      obtain ⟨hknown', hiff⟩ := registryTrue_finished hs hphase h hknown
      have hsame : ((s.goto (.retiring graceful)).registered && !s.registered) = false := by
        simp [Session.goto]
      dsimp only
      rw [hstep]
      dsimp only
      rw [hsame]
      refine ⟨?_, hknown'⟩
      refine Iff.trans ?_ hiff.symm
      constructor
      · intro halone hreg
        exact halone s graceful hs hreg hphase
      · intro hcond t graceful' hget hreg hphase'
        rw [hs] at hget
        obtain rfl := Option.some.inj hget
        rw [hphase] at hphase'
        obtain rfl := SessionPhase.finishing.inj hphase'
        exact hcond hreg
    · have halone : d.FinishesAlone (.session id answer) := by
        intro t graceful hget _ hphase'
        rw [hs] at hget
        obtain rfl := Option.some.inj hget
        exact absurd ⟨graceful, hphase'⟩ hphase
      have hmove := Session.move_step d.coordinator id s answer
      dsimp only
      generalize s.step d.coordinator id answer = next at *
      obtain ⟨c', s'⟩ := next
      dsimp only at hmove ⊢
      rw [iff_true_left halone]
      cases hmove with
      | quiet hc hsteady =>
        have hsame : (s'.registered && !s.registered) = false := by
          rw [hsteady.registered, Bool.and_not_self]
        rw [hsame]
        refine registryTrue_steady hs hc.marks hsteady.registered hsteady.worker ?_ (fun hended => ?_)
          h hknown
        · rcases hsteady.finished with ⟨hbefore, hafter⟩ | rfl
          · rw [hbefore, hafter]
          · rfl
        · rcases hsteady.finished with ⟨hbefore, -⟩ | rfl
          · rw [endedUngracefully_finished hended] at hbefore
            cases hbefore
          · exact hended
      | @admitted s' hello response hphase' hregistered hworker htrace hnext =>
        have hopening : s.opening = true := by rw [Session.opening, hphase']
        have hunregistered := hb.opening s (List.mem_of_getElem? hs) hopening
        have hnew : (s'.registered && !s.registered) = true := by
          rw [hregistered, hunregistered]
          rfl
        rw [hnew, if_pos rfl, hworker]
        exact registryTrue_admitted hs hopening hunregistered hregistered hworker
          (by rw [Session.finished, hnext]) h hknown
      | @finished graceful hphase' => exact absurd ⟨graceful, hphase'⟩ hphase
      | @retired graceful hphase' =>
        have hsame : (((s.record .retired).goto (.ended graceful)).registered &&
            !s.registered) = false := by
          simp [Session.goto, Session.record]
        rw [hsame]
        refine registryTrue_steady hs (fun w => rfl) rfl rfl ?_ (fun hended => ?_) h hknown
        · rw [Session.finished, Session.finished, hphase']
          rfl
        · rw [Session.endedUngracefully, hphase'] at hended
          exact hended

theorem registryTrue_step (hb : d.Balanced) (h : d.RegistryTrue) (hknown : d.Known) (act : Act) :
    (d.FinishesAlone act ↔ (d.step act).RegistryTrue) ∧ (d.step act).Known := by
  cases act with
  | session id answer => exact registryTrue_session hb h hknown id answer
  | accept connection =>
    obtain ⟨htrue, hknown'⟩ := registryTrue_accept connection h hknown
    exact ⟨iff_of_true trivial htrue, hknown'⟩
  | stop =>
    obtain ⟨htrue, hknown'⟩ := registryTrue_stop h hknown
    exact ⟨iff_of_true trivial htrue, hknown'⟩

/-! ### Runs -/

/-- THE REGISTRY IS TRUE after every step of a run exactly when no session of the run finishes beside
    another session of its worker. -/
theorem registry_run (maxWorkers : ℕ) (authority : AuthorityState) (governor : Governor)
    (acts : List Act) :
    Runs.Meets step (fun d act => (d.step act).RegistryTrue) (start maxWorkers authority governor)
      acts ↔ Runs.Meets step FinishesAlone (start maxWorkers authority governor) acts := by
  have hempty : (start maxWorkers authority governor).RegistryTrue := by
    intro w record hfind
    cases hfind
  have hnobody : (start maxWorkers authority governor).Known := by
    rintro id w s ⟨hget, -⟩
    cases hget
  refine Runs.meets_iff_of_guarded (I := fun d => d.Balanced ∧ d.RegistryTrue ∧ d.Known) ?_
    ⟨balanced_start _ _ _, hempty, hnobody⟩
  rintro d act ⟨hb, h, hknown⟩
  obtain ⟨hiff, hknown'⟩ := registryTrue_step hb h hknown act
  exact ⟨hiff.symm, fun htrue => ⟨hb.step act, htrue, hknown'⟩⟩

/-- A hello of worker 9 to a coordinator of epoch 1 and boot 1. -/
def workerHello : Frame where
  header := { type := MessageType.hello }
  payload := [ByteWriter.u16 wireProtocolVersion, ByteWriter.u64 9, ByteWriter.u64 3,
    ByteWriter.u64 1, ByteWriter.u32 1, ByteWriter.u64 0].flatten

/-- Worker 9 connects again before its first session has noticed that the first connection broke. -/
def reconnect : List Act :=
  List.replicate 10 (.accept true) ++
    [.session 0 { frame := some workerHello }, .session 0 {}, .session 0 {}, .session 0 {},
      .session 1 { frame := some workerHello }, .session 1 {}, .session 1 {}, .session 1 {},
      .session 0 { frame := none }, .session 0 {}]

def reconnected : Deployment :=
  Runs.run step (start 2 ⟨⟨1⟩, ⟨5⟩, ⟨1⟩⟩ {}) reconnect

/-- The late finish of the first session disconnects the record of the second. -/
theorem reconnected_marked_disconnected : ¬ ∀ maxWorkers authority governor acts,
    (Runs.run step (start maxWorkers authority governor) acts).RegistryTrue := by
  intro hlaw
  have hrun : reconnected.RegistryTrue := hlaw 2 ⟨⟨1⟩, ⟨5⟩, ⟨1⟩⟩ {} reconnect
  have hrecord : (reconnected.coordinator.workers.find? ⟨9⟩).map (fun r => r.connected) =
      some false := by decide +kernel
  have hsession : (reconnected.sessions[1]?).map (fun s => (s.registered, s.worker, s.finished)) =
      some (true, ⟨9⟩, false) := by decide +kernel
  obtain ⟨record, hfind, hdisconnected⟩ := Option.map_eq_some_iff.mp hrecord
  obtain ⟨s, hget, hs⟩ := Option.map_eq_some_iff.mp hsession
  simp only [Prod.mk.injEq] at hs
  obtain ⟨hregistered, hworker, hfinished⟩ := hs
  have hconnected := (hrun ⟨9⟩ record hfind).connected.mpr
    ⟨1, s, ⟨hget, hregistered, hworker⟩, hfinished⟩
  rw [hdisconnected] at hconnected
  cases hconnected

end Deployment

end Mbg
