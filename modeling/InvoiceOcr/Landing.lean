/-
  File:      InvoiceOcr/Landing.lean
  Subject:   WHETHER THE PHASH LANDS. The pHash of a row is written by an update of its own, before
             the cache lookup; a failure of it is passed over because the pHash "will land on success
             update".

  * `SamePhash` -- what other tasks do meanwhile: anything but a change of the pHash of the row;
  * `Landed`, `Lands` -- from the cache lookup on, a run that writes SUCCEEDED leaves the pHash of
    the row as it found it;
  * **`success_carries_phash_iff`** -- so the row of a success carries the pHash of the run exactly
    when Postgres refused no pHash update of the run.
-/
import InvoiceOcr.Async.Amid
import InvoiceOcr.Footprint
import InvoiceOcr.Transparency
import InvoiceOcr.Outage

namespace InvoiceOcr

open PyJson Async

/-! ## 1. The pHash of a row -/

/-- The pHash column of the row, where there is a row. -/
def rowPhash (j : Uuid) (w : World) : Option (Option Str) := (w.jobs.find j).map (·.phash)

/-- Meanwhile nobody changes the pHash of the row. -/
def SamePhash (j : Uuid) (w w' : World) : Prop := rowPhash j w' = rowPhash j w

/-- A success write on the job that took effect. -/
def SuccessWrite (j : Uuid) (ev : Event Op Ans PyExc) : Prop :=
  ∃ set, set.status = .succeeded ∧ ev = ⟨.updateJob j set, .ok ()⟩

/-- The run got SUCCEEDED written. -/
def WritesSucceeded (j : Uuid) (es : List (Event Op Ans PyExc)) : Prop := ∃ ev ∈ es, SuccessWrite j ev

/-- Postgres refused a pHash update of the run. -/
def PhashRefused (j : Uuid) (es : List (Event Op Ans PyExc)) : Prop :=
  ∃ phash e, (⟨.updateJob j (phashSet phash), .error e⟩ : Event Op Ans PyExc) ∈ es

/-- **What `preprocess_image` computed in the run**: after the status check and the PROCESSING mark
    the run downloads an image, and this is its pHash. -/
def PhashComputed (wk : Worker) (v : Json) (es : List (Event Op Ans PyExc)) (phash : Str) : Prop :=
  ∃ read mark download after raw pp, es = read :: mark :: (download ++ after) ∧
    Driven (downloadImage wk.cfg wk.lib v) download (.ok raw) ∧
    preprocessImage wk.cfg wk.lib raw = .ok pp ∧ pp.phash = phash

/-- A run computes one pHash. -/
theorem phashComputed_unique {wk : Worker} {v : Json} {es : List (Event Op Ans PyExc)}
    {phash phash' : Str} (h : PhashComputed wk v es phash) (h' : PhashComputed wk v es phash') :
    phash = phash' := by
  obtain ⟨read, mark, download, after, raw, pp, rfl, hdown, hpp, rfl⟩ := h
  obtain ⟨read', mark', download', after', raw', pp', heq, hdown', hpp', rfl⟩ := h'
  have htail : download ++ after = download' ++ after' := by
    injection heq with _ heq
    injection heq
  obtain ⟨rfl, hraw⟩ := driven_unique hdown hdown' htail
  cases hraw
  cases hpp.symm.trans hpp'
  rfl

/-! ## 2. Calls that leave it alone -/

/-- No row comes or goes and no pHash is written. -/
def Op.SparesPhash : Op → Prop
  | .insertJob _ _ _ => False
  | .updateJob _ set => set.phash = none
  | .deleteOld _ => False
  | _ => True

/-- Not a success write. -/
def Op.NoSuccess : Op → Prop
  | .updateJob _ set => set.status ≠ .succeeded
  | _ => True

/-- Neither. -/
def Op.IsNeutral (o : Op) : Prop := o.SparesPhash ∧ o.NoSuccess

theorem Op.IsStage.neutral {o : Op} (h : o.IsStage) : o.IsNeutral := by
  cases o <;> first | exact ⟨trivial, trivial⟩ | simp [Op.IsStage, Op.isStage] at h

theorem Op.IsModel.neutral {o : Op} (h : o.IsModel) : o.IsNeutral := h.isStage.neutral

theorem Op.IsClosing.noSuccess {o : Op} (h : o.IsClosing) : o.NoSuccess := by
  cases o with
  | updateJob j set =>
    intro hs
    have hfailed : set.status.isFailed = true := h
    rw [hs] at hfailed
    simp [JobStatus.isFailed] at hfailed
  | _ => exact trivial

theorem not_successWrite {j : Uuid} (ev : Event Op Ans PyExc) (h : ev.op.NoSuccess) :
    ¬ SuccessWrite j ev := by
  intro hw
  obtain ⟨set, hset, rfl⟩ := hw
  exact h hset

/-- **A call that spares the pHash leaves it where it was**, whoever makes it. -/
theorem samePhash_of_sem {j : Uuid} {w w' : World} {o : Op} {r : Except PyExc (Ans o)}
    (ho : o.SparesPhash) (h : Sem w o r w') : SamePhash j w w' := by
  unfold SamePhash rowPhash
  cases rowChange_of_sem h j with
  | same hsame => rw [hsame]
  | inserted => exact ho.elim
  | @updated set hnew =>
    rw [hnew, Option.map_map]
    have hnone : set.phash = none := ho
    refine congrArg (fun f => (w.jobs.find j).map f) (funext fun row => ?_)
    simp only [Function.comp_apply, JobSet.apply, hnone, Option.none_or]
  | touched hnew => rw [hnew, Option.map_map]; rfl
  | purged => exact ho.elim

theorem samePhash_amid {j : Uuid} {w w' : World} {o : Op} {r : Except PyExc (Ans o)}
    (ho : o.SparesPhash) (h : Amid (SamePhash j) Sem w o r w') : rowPhash j w' = rowPhash j w := by
  obtain ⟨w₁, hothers, hsem⟩ := h
  exact (samePhash_of_sem ho hsem).trans hothers

/-- A pHash update that takes effect. -/
theorem rowPhash_update {j : Uuid} {w w' : World} {phash : Str} {a : Unit} {old : Option Str}
    (h : Amid (SamePhash j) Sem w (.updateJob j (phashSet phash)) (.ok a) w')
    (hrow : rowPhash j w = some old) : rowPhash j w' = some (some phash) := by
  obtain ⟨w₁, hothers, t, ht, rfl⟩ := h
  have hrow₁ : (w₁.jobs.find j).map (·.phash) = some old := hothers.trans hrow
  obtain ⟨row, hfind, -⟩ := Option.map_eq_some_iff.mp hrow₁
  have hnew := Relational.Table.find_modify ht j
  rw [if_pos rfl, hfind] at hnew
  exact congrArg (Option.map (·.phash)) hnew

/-! ## 3. From the cache lookup on -/

/-- How a run that got SUCCEEDED written has ended. -/
structure Landed (j : Uuid) (w : World) (es : List (Event Op Ans PyExc)) (y : Except PyExc Unit)
    (w' : World) : Prop where
  returned : y = .ok ()
  same : SamePhash j w w'
  spared : ∀ ev ∈ es, ev.op.SparesPhash

/-- Every run of the body that gets SUCCEEDED written, among tasks that leave the pHash alone, ends
    so. -/
def Lands (j : Uuid) (p : Py Unit) : Prop :=
  ∀ w es y w', Exec (Amid (SamePhash j) Sem) p w es y w' → WritesSucceeded j es → Landed j w es y w'

section Lands

variable {wk : Worker} {j : Uuid} {v : Json} {es es' : List (Event Op Ans PyExc)}

theorem lands_of_noSuccess {p : Py Unit} (hp : p.OnlyCalls Op.NoSuccess) : Lands j p := by
  intro w es y w' h hs
  obtain ⟨ev, hev, hw⟩ := hs
  exact absurd hw (not_successWrite ev (exec_mem hp h ev hev))

/-- The helpers that end a run write no success. -/
theorem noSuccess_closing {p : Py Unit} (hp : p.OnlyCalls Op.IsClosing) :
    p.OnlyCalls Op.NoSuccess :=
  onlyCalls_mono (fun _ ho => ho.noSuccess) hp

/-- A neutral step, with what follows each of its ends. -/
theorem lands_tryElse {α : Type} {p : Py α} {h : PyExc → Py Unit} {k : α → Py Unit}
    (hp : p.OnlyCalls Op.IsNeutral) (hh : ∀ e, (h e).OnlyCalls Op.NoSuccess)
    (hk : ∀ a, Lands j (k a)) : Lands j (p.tryElse h k) := by
  intro w es y w' hrun hs
  have hquiet : p.OnlyCalls Op.NoSuccess := onlyCalls_mono (fun _ ho => ho.2) hp
  obtain ⟨es₁, w₁, es₂, a, rfl, hbody, hrest, hs₂⟩ := exec_past not_successWrite hquiet hh hrun hs
  have hland := hk a _ _ _ _ hrest hs₂
  refine ⟨hland.returned, ?_, fun ev hev => ?_⟩
  · have hkeep : rowPhash j w₁ = rowPhash j w :=
      exec_keeps (fun _ _ _ _ ho hr => samePhash_amid ho.1 hr) hp hbody
    exact hland.same.trans hkeep
  · rcases List.mem_append.mp hev with hev | hev
    · exact (exec_mem hp hbody ev hev).1
    · exact hland.spared ev hev

theorem lands_bind {α : Type} {p : Py α} {f : α → Py Unit} (hp : p.OnlyCalls Op.IsNeutral)
    (hf : ∀ a, Lands j (f a)) : Lands j (p.bind f) :=
  lands_tryElse (h := .raise) hp (fun _ => trivial) hf

/-- The success write itself has no pHash. -/
theorem lands_persist (final : InvoiceResult) : Lands j (persist j v final) := by
  intro w es y w' h hs
  obtain ⟨es₁, w₁, es₂, rfl, hbranch⟩ := (exec_tryElse _ _ _ y).mp h
  rcases hbranch with ⟨a, hwrite, hrest⟩ | ⟨e, hwrite, hrest⟩
  · obtain ⟨r, hcall, rfl, hr⟩ := (exec_mapped _ _ _).mp hwrite
    obtain ⟨rfl, rfl, rfl⟩ := (exec_ret a y).mp hrest
    have hspared : (Op.updateJob j (successSet final)).SparesPhash := rfl
    refine ⟨rfl, samePhash_amid hspared hcall, fun ev hev => ?_⟩
    cases List.mem_singleton.mp hev
    exact rfl
  · -- the write was refused, and what follows is no success write
    obtain ⟨r, -, rfl, hr⟩ := (exec_mapped _ _ _).mp hwrite
    obtain ⟨ev, hev, hw⟩ := hs
    rcases List.mem_append.mp hev with hev | hev
    · obtain ⟨set, -, rfl⟩ := hw
      cases List.mem_singleton.mp hev
      simp [Except.mapError] at hr
    · refine absurd hw (not_successWrite ev (exec_mem ?_ hrest ev hev))
      split
      · exact noSuccess_closing closing_yield
      · exact trivial

theorem lands_finish (raw : InvoiceResult) : Lands j (finish wk j v raw) :=
  lands_bind (onlyCalls_ofExcept _) fun final => lands_persist final

theorem lands_extract (phash : Str) (crop : Image) : Lands j (extractStage wk j v phash crop) := by
  refine lands_tryElse (onlyCalls_mono (fun _ ho => ho.neutral) (model_extractInvoice _ _ _))
    (fun e => ?_) fun raw => ?_
  · split
    · exact noSuccess_closing closing_yield
    · split
      · exact noSuccess_closing closing_requeue
      · split
        · exact noSuccess_closing (closing_fail _ _ _)
        · exact trivial
  · refine lands_bind (onlyCalls_suppress ?_ _ _) fun _ => lands_finish raw
    exact onlyCalls_mapped (o := .setex _ _ _) ⟨trivial, trivial⟩ _

theorem lands_acquire (phash : Str) (crop : Image) : Lands j (acquireStage wk j v phash crop) := by
  have hacquire : Op.acquire.IsNeutral := ⟨trivial, trivial⟩
  refine lands_bind (onlyCalls_await hacquire) fun granted => ?_
  cases granted with
  | true => exact lands_extract phash crop
  | false => exact lands_of_noSuccess (noSuccess_closing closing_yield)

theorem lands_detect (pp : PreprocessResult) : Lands j (detectStage wk j v pp) := by
  refine lands_tryElse (onlyCalls_mono (fun _ ho => ho.neutral) (model_detectInvoice _ _ _))
    (fun e => ?_) fun crop => lands_acquire pp.phash crop
  split
  · exact noSuccess_closing (closing_fail _ _ _)
  · split
    · exact noSuccess_closing closing_requeue
    · exact trivial

/-- **From the cache lookup on no pHash is written**, on a hit as on a miss. -/
theorem lands_cache (pp : PreprocessResult) : Lands j (cacheStage wk j v pp) := by
  have hget : (getPhashCache wk.cfg pp.phash).OnlyCalls Op.IsNeutral := by
    refine onlyCalls_bind (onlyCalls_mapped (o := .get _) ⟨trivial, trivial⟩ _) fun val => ?_
    cases val <;> exact trivial
  refine lands_bind (onlyCalls_suppress hget _ _) fun cachedRaw => ?_
  cases cachedInvoice cachedRaw with
  | some raw => exact lands_finish raw
  | none => exact lands_detect pp

end Lands

/-! ## 4. From the status check on -/

section Carries

variable {wk : Worker} {j : Uuid} {v : Json} {es es' : List (Event Op Ans PyExc)} {w w' : World}
  {y : Except PyExc Unit}

theorem refused_append : PhashRefused j (es ++ es') ↔ PhashRefused j es ∨ PhashRefused j es' := by
  constructor
  · intro h
    obtain ⟨phash, e, hm⟩ := h
    rcases List.mem_append.mp hm with hm | hm
    · exact Or.inl ⟨phash, e, hm⟩
    · exact Or.inr ⟨phash, e, hm⟩
  · intro h
    rcases h with ⟨phash, e, hm⟩ | ⟨phash, e, hm⟩
    · exact ⟨phash, e, List.mem_append_left _ hm⟩
    · exact ⟨phash, e, List.mem_append_right _ hm⟩

theorem not_refused_of_spared (h : ∀ ev ∈ es, ev.op.SparesPhash) : ¬ PhashRefused j es := by
  intro href
  obtain ⟨phash, e, hm⟩ := href
  have hnone : (phashSet phash).phash = none := h _ hm
  simp [phashSet] at hnone

/-- A run that got SUCCEEDED written returns, and its row carries the pHash exactly when no update of
    it was refused. -/
structure Carried (j : Uuid) (phash : Str) (es : List (Event Op Ans PyExc)) (y : Except PyExc Unit)
    (w' : World) : Prop where
  returned : y = .ok ()
  carried : rowPhash j w' = some (some phash) ↔ ¬ PhashRefused j es

/-- What was done before does not matter, pHash updates apart. -/
theorem Carried.after {phash : Str} (h : Carried j phash es' y w')
    (hspared : ∀ ev ∈ es, ev.op.SparesPhash) : Carried j phash (es ++ es') y w' := by
  refine ⟨h.returned, h.carried.trans (not_congr ?_)⟩
  rw [refused_append]
  exact ⟨Or.inr, fun href => href.resolve_left (not_refused_of_spared hspared)⟩

/-- One statement whose exceptions are mapped, in a run that goes on. -/
theorem statement_ok {o : Op} {f : PyExc → PyExc} {a : Ans o}
    (h : Exec (Amid (SamePhash j) Sem) ((await o).tryCatch fun e => .raise (f e)) w es (.ok a) w') :
    es = [⟨o, .ok a⟩] ∧ Amid (SamePhash j) Sem w o (.ok a) w' := by
  obtain ⟨r, hcall, rfl, hr⟩ := (exec_mapped o f _).mp h
  cases r with
  | error e => simp [Except.mapError] at hr
  | ok b =>
    cases hr
    exact ⟨rfl, hcall⟩

/-- One that is passed over when Postgres refuses it: it took effect, or did nothing. -/
theorem update_passedOver {set : JobSet} {c : PyExc → Bool} {a : Unit}
    (h : Exec (Amid (SamePhash j) Sem)
      ((updateJobStatus j set).tryCatch fun e => if c e then .ret () else .raise e) w es (.ok a) w') :
    (es = [⟨.updateJob j set, .ok ()⟩] ∧ Amid (SamePhash j) Sem w (.updateJob j set) (.ok ()) w') ∨
      ∃ e, es = [⟨.updateJob j set, .error e⟩] ∧ SamePhash j w w' := by
  obtain ⟨es₁, w₁, es₂, rfl, hbranch⟩ := (exec_tryElse _ _ _ _).mp h
  rcases hbranch with ⟨b, hwrite, hret⟩ | ⟨e, hwrite, hhandle⟩
  · obtain ⟨rfl, hcall⟩ := statement_ok hwrite
    obtain ⟨rfl, -, rfl⟩ := (exec_ret b _).mp hret
    exact Or.inl ⟨rfl, hcall⟩
  · obtain ⟨r, hcall, rfl, hr⟩ := (exec_mapped _ _ _).mp hwrite
    cases r with
    | ok b => simp [Except.mapError] at hr
    | error e' =>
      obtain ⟨w₂, hothers, rfl⟩ := hcall
      split at hhandle
      · obtain ⟨rfl, -, rfl⟩ := (exec_ret () _).mp hhandle
        exact Or.inr ⟨e', rfl, hothers⟩
      · obtain ⟨-, hx, -⟩ := (exec_raise e _).mp hhandle
        simp at hx

/-- **The pHash update**: it is left out when the row carried the pHash already, and passed over when
    Postgres refuses it. -/
theorem phash_carried {record : JobRow} {pp : PreprocessResult}
    (h : Exec (Amid (SamePhash j) Sem) (phashStage wk j v record pp) w es y w')
    (hs : WritesSucceeded j es) (hrow : rowPhash j w = some record.phash) :
    Carried j pp.phash es y w' := by
  unfold phashStage at h
  split at h
  · next hne =>
    have hmark : (Op.updateJob j (phashSet pp.phash)).NoSuccess := fun hs => by simp [phashSet] at hs
    have hquiet : (updateJobStatus j (phashSet pp.phash)).OnlyCalls Op.NoSuccess :=
      onlyCalls_mapped hmark _
    obtain ⟨es₁, w₁, es₂, a, rfl, hupdate, hrest, hs₂⟩ := exec_past (h := .raise)
      not_successWrite (onlyCalls_suppress hquiet _ _) (fun _ => trivial) h hs
    have hland := lands_cache pp _ _ _ _ hrest hs₂
    refine ⟨hland.returned, ?_⟩
    rw [refused_append]
    rcases update_passedOver hupdate with ⟨rfl, hcall⟩ | ⟨e, rfl, hsame⟩
    · -- written: the success write leaves it there
      have hrow' : rowPhash j w' = some (some pp.phash) :=
        hland.same.trans (rowPhash_update hcall hrow)
      refine iff_of_true hrow' fun href => ?_
      rcases href with ⟨phash, e, hm⟩ | href
      · simp at hm
      · exact not_refused_of_spared hland.spared href
    · -- refused: nothing after it makes up for it
      have hrow' : rowPhash j w' = some record.phash := hland.same.trans (hsame.trans hrow)
      refine iff_of_false (fun hcarried => ?_) fun hnot => ?_
      · exact hne (Option.some.inj (hrow'.symm.trans hcarried))
      · exact hnot (Or.inl ⟨pp.phash, e, List.mem_singleton_self _⟩)
  · next heq =>
    have hsame : record.phash = some pp.phash := not_not.mp heq
    have hland := lands_cache pp _ _ _ _ h hs
    have hrow' : rowPhash j w' = some (some pp.phash) := by rw [hland.same, hrow, hsame]
    exact ⟨hland.returned, iff_of_true hrow' (not_refused_of_spared hland.spared)⟩

/-- The download and the preprocessing come before it. -/
theorem download_carried {record : JobRow}
    (h : Exec (Amid (SamePhash j) Sem) (downloadStage wk j v record) w es y w')
    (hs : WritesSucceeded j es) (hrow : rowPhash j w = some record.phash) :
    ∃ download after raw pp, es = download ++ after ∧
      Driven (downloadImage wk.cfg wk.lib v) download (.ok raw) ∧
      preprocessImage wk.cfg wk.lib raw = .ok pp ∧ Carried j pp.phash es y w' := by
  have hneutral : (downloadImage wk.cfg wk.lib v).OnlyCalls Op.IsNeutral :=
    onlyCalls_mono (fun _ ho => ho.neutral) (stage_downloadImage _ _ _)
  have hclose : ∀ e : PyExc, (if e.isPermanentPipelineError then failPermanent j e
      else if e.isStorageTransientError then requeueCounted wk.cfg j v
      else .raise e : Py Unit).OnlyCalls Op.NoSuccess := by
    intro e
    split
    · exact noSuccess_closing (closing_fail _ _ _)
    · split
      · exact noSuccess_closing closing_requeue
      · exact trivial
  obtain ⟨es₁, w₁, es₂, raw, rfl, hdown, hrest, hs₂⟩ := exec_past not_successWrite
    (onlyCalls_mono (fun _ ho => ho.2) hneutral) hclose h hs
  have hfail : ∀ e : PyExc, (if e.isPermanentPipelineError then failPermanent j e
      else .raise e : Py Unit).OnlyCalls Op.NoSuccess := by
    intro e
    split
    · exact noSuccess_closing (closing_fail _ _ _)
    · exact trivial
  obtain ⟨es₃, w₂, es₄, pp, rfl, hpre, hphash, hs₄⟩ := exec_past not_successWrite
    (onlyCalls_ofExcept _) hfail hrest hs₂
  obtain ⟨rfl, hpp, rfl⟩ := (exec_ofExcept _ _).mp hpre
  have hkeep : rowPhash j w₂ = rowPhash j w :=
    exec_keeps (fun _ _ _ _ ho hr => samePhash_amid ho.1 hr) hneutral hdown
  have hcarried := phash_carried hphash hs₄ (hkeep.trans hrow)
  exact ⟨es₁, _, raw, pp, rfl, hdown.driven, hpp.symm,
    hcarried.after fun ev hev => (exec_mem hneutral hdown ev hev).1⟩

theorem noSuccess_yield (e : PyExc) : (if e.isDatabaseUnavailable then yieldToQueue j v
    else .raise e : Py Unit).OnlyCalls Op.NoSuccess := by
  split
  · exact noSuccess_closing closing_yield
  · exact trivial

/-- The status check and the PROCESSING mark come before that. -/
theorem body_carried (h : Exec (Amid (SamePhash j) Sem) (lifecycleBody wk j v) w es y w')
    (hs : WritesSucceeded j es) :
    ∃ phash, PhashComputed wk v es phash ∧ Carried j phash es y w' := by
  have hselect : (Op.selectJob j).IsNeutral := ⟨trivial, trivial⟩
  have hmark : (Op.updateJob j processingSet).IsNeutral :=
    ⟨rfl, fun hs => by simp [processingSet] at hs⟩
  obtain ⟨es₁, w₁, es₂, row, rfl, hread, hrest, hs₂⟩ := exec_past not_successWrite
    (onlyCalls_mapped hselect.2 _) noSuccess_yield h hs
  obtain ⟨rfl, w₀, -, hfind, rfl⟩ := statement_ok hread
  have hends : ∀ {es w x}, Exec (Amid (SamePhash j) Sem) (.ret () : Py Unit) w₁ es x w →
      ¬ WritesSucceeded j es := by
    intro es w x hret hs
    obtain ⟨rfl, -, -⟩ := (exec_ret () x).mp hret
    obtain ⟨ev, hev, -⟩ := hs
    exact List.not_mem_nil hev
  cases row with
  | none => exact absurd hs₂ (hends hrest)
  | some record =>
    simp only at hrest
    split at hrest
    · exact absurd hs₂ (hends hrest)
    · obtain ⟨es₃, w₂, es₄, a, rfl, hwrite, hdown, hs₄⟩ := exec_past not_successWrite
        (onlyCalls_mapped hmark.2 _) noSuccess_yield hrest hs₂
      obtain ⟨rfl, hcall⟩ := statement_ok hwrite
      have hrow : rowPhash j w₂ = some record.phash := by
        refine (samePhash_amid hmark.1 hcall).trans ?_
        rw [rowPhash, ← hfind]
        rfl
      obtain ⟨download, after, raw, pp, rfl, hdriven, hpp, hcarried⟩ :=
        download_carried hdown hs₄ hrow
      refine ⟨pp.phash, ⟨_, _, download, after, raw, pp, rfl, hdriven, hpp, rfl⟩, ?_⟩
      have hspared : ∀ ev ∈ [(⟨.selectJob j, .ok (some record)⟩ : Event Op Ans PyExc),
          ⟨.updateJob j processingSet, .ok a⟩], ev.op.SparesPhash := by
        intro ev hev
        rcases List.mem_pair.mp hev with rfl | rfl
        · exact hselect.1
        · exact hmark.1
      exact hcarried.after hspared

/-- The catch-all handlers write no success. -/
theorem lifecycle_carried (h : Exec (Amid (SamePhash j) Sem) (executeTaskLifecycle wk j v) w es y w')
    (hs : WritesSucceeded j es) :
    ∃ phash, PhashComputed wk v es phash ∧ Carried j phash es y w' := by
  obtain ⟨es₁, w₁, es₂, rfl, hbranch⟩ := (exec_tryElse _ _ _ y).mp h
  rcases hbranch with ⟨a, hbody, hret⟩ | ⟨e, hbody, hhandle⟩
  · obtain ⟨rfl, rfl, rfl⟩ := (exec_ret a y).mp hret
    rw [List.append_nil] at hs ⊢
    exact body_carried hbody hs
  · obtain ⟨ev, hev, hw⟩ := hs
    rcases List.mem_append.mp hev with hev | hev
    · obtain ⟨phash, -, hcarried⟩ := body_carried hbody ⟨ev, hev, hw⟩
      have hok := hcarried.returned
      simp at hok
    · have hquiet := noSuccess_closing (closing_handler (j := j) e)
      exact absurd hw (not_successWrite ev (exec_mem hquiet hhandle ev hev))

end Carries

/-- **When a success carries its pHash**: among tasks that leave the pHash of the row alone, a run of
    the lifecycle that gets SUCCEEDED written computed one pHash, and its row carries that one exactly
    when Postgres refused no pHash update of the run. -/
theorem success_carries_phash_iff {wk : Worker} {j : Uuid} {v : Json} {w w' : World}
    {es : List (Event Op Ans PyExc)} {x : Except PyExc Unit}
    (h : Exec (Amid (SamePhash j) Sem) (executeTaskLifecycle wk j v) w es x w')
    (hs : WritesSucceeded j es) :
    ∃ phash, (∀ phash', PhashComputed wk v es phash' ↔ phash' = phash) ∧
      (rowPhash j w' = some (some phash) ↔ ¬ PhashRefused j es) := by
  obtain ⟨phash, hcomputed, hcarried⟩ := lifecycle_carried h hs
  refine ⟨phash, fun phash' => ⟨fun h' => phashComputed_unique h' hcomputed, ?_⟩, hcarried.carried⟩
  rintro rfl
  exact hcomputed

/-! ## 5. Concrete runs -/

namespace Sample

/-- The lifecycle of the submitted job, with the services at work. -/
def lifecycle : Py Unit := executeTaskLifecycle (caching.worker 0) job (.str url)

/-- Its events, outcome and last world under faults. -/
def landing (faults : Op → Option PyExc) :
    List (Event Op Ans PyExc) × Except PyExc Unit × World :=
  (lifecycle.events (World.answer faults services) waiting,
    lifecycle.interp (World.answer faults services) waiting)

theorem exec_landing (faults : Op → Option PyExc) :
    Exec Sem lifecycle waiting (landing faults).1 (landing faults).2.1 (landing faults).2.2 :=
  exec_events _ (answer_sem faults services) lifecycle waiting

/-- The same run, among others that do nothing. -/
theorem exec_among (faults : Op → Option PyExc) :
    Exec (Amid (SamePhash job) Sem) lifecycle waiting (landing faults).1 (landing faults).2.1
      (landing faults).2.2 :=
  exec_amid (fun w => (rfl : SamePhash job w w)) (exec_landing faults)

/-- Postgres refuses the pHash update only. -/
def phashUpdateRefused : Op → Option PyExc
  | .updateJob _ set => if set.phash.isSome then some (.interfaceError []) else none
  | _ => none

/-- A success write on the job, decided. -/
def succeeds : Event Op Ans PyExc → Bool
  | ⟨.updateJob j set, .ok _⟩ => j = job && set.status = .succeeded
  | _ => false

/-- A refused write on the jobs table. -/
def refuses : Event Op Ans PyExc → Bool
  | ⟨.updateJob _ _, .error _⟩ => true
  | _ => false

theorem writes_of_succeeds {es : List (Event Op Ans PyExc)} (h : es.any succeeds = true) :
    WritesSucceeded job es := by
  obtain ⟨ev, hev, hw⟩ := List.any_eq_true.mp h
  refine ⟨ev, hev, ?_⟩
  unfold succeeds at hw
  split at hw
  · next j set a =>
    simp only [Bool.and_eq_true, decide_eq_true_eq] at hw
    obtain ⟨rfl, hset⟩ := hw
    exact ⟨set, hset, rfl⟩
  · simp at hw

theorem writes_landing : WritesSucceeded job (landing fun _ => none).1 :=
  writes_of_succeeds (by decide +kernel)

theorem accepted_landing : ¬ PhashRefused job (landing fun _ => none).1 := by
  intro h
  obtain ⟨phash, e, hm⟩ := h
  have hnone : (landing fun _ => none).1.any refuses = false := by decide +kernel
  have hfalse := List.any_eq_false.mp hnone _ hm
  simp [refuses] at hfalse

end Sample

/-- A run with no failures. -/
theorem success_carries_phash_healthy :
    ∃ phash, (∀ phash', PhashComputed (Sample.caching.worker 0) (.str Sample.url)
        (Sample.landing fun _ => none).1 phash' ↔ phash' = phash) ∧
      rowPhash Sample.job (Sample.landing fun _ => none).2.2 = some (some phash) := by
  have hrun := Sample.exec_among fun _ => none
  obtain ⟨phash, hcomputed, hiff⟩ := success_carries_phash_iff hrun Sample.writes_landing
  exact ⟨phash, hcomputed, hiff.mpr Sample.accepted_landing⟩

/-- **A success without a pHash**: Postgres refuses the pHash update and nothing else. The run gets
    SUCCEEDED written on a row with no pHash. -/
theorem success_without_phash : ∃ phash,
    Exec Sem (executeTaskLifecycle (Sample.caching.worker 0) Sample.job (.str Sample.url))
      Sample.waiting (Sample.landing Sample.phashUpdateRefused).1
      (Sample.landing Sample.phashUpdateRefused).2.1
      (Sample.landing Sample.phashUpdateRefused).2.2 ∧
    WritesSucceeded Sample.job (Sample.landing Sample.phashUpdateRefused).1 ∧
    PhashComputed (Sample.caching.worker 0) (.str Sample.url)
      (Sample.landing Sample.phashUpdateRefused).1 phash ∧
    rowPhash Sample.job (Sample.landing Sample.phashUpdateRefused).2.2 = some none := by
  have hrun := Sample.exec_landing Sample.phashUpdateRefused
  have hs : WritesSucceeded Sample.job (Sample.landing Sample.phashUpdateRefused).1 :=
    Sample.writes_of_succeeds (by decide +kernel)
  obtain ⟨phash, hcomputed, -⟩ := lifecycle_carried (Sample.exec_among _) hs
  exact ⟨phash, hrun, hs, hcomputed, by decide +kernel⟩

end InvoiceOcr
