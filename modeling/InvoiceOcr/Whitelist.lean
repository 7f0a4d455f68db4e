/-
  File:      InvoiceOcr/Whitelist.lean
  Subject:   WHAT `_match` RETURNS (src/pipeline/whitelist_index.py), for every list of names and every
             scorer.

  * `SubIndex.Represents` -- the three structures of an index, read off the list it was built from;
  * `matchTier` -- `_match` together with the tier it counts, `Exit` -- the ways it ends;
  * **`matchTier_exit`** -- every call ends in one of them, without a failed lookup;
  * **`match_meets_reference`** -- so `_match` is the first best candidate over its cutoff, or the
    normalized text;
  * **`growth_keeps_hit`** -- one more name loses a match only by becoming the first candidate;
  * **`match_idempotent`** -- what was matched is matched to itself.
-/
import Mathlib.Algebra.Order.Ring.Unbundled.Rat
import Mathlib.Data.List.MinMax
import InvoiceOcr.Postprocess

namespace InvoiceOcr

open PyJson PyText Async

/-! ## 1. What an index is built from -/

section Represents

variable (txt : Texts)

/-- The names that are something in lower case. -/
def entries (names : List Str) : List Str := names.filter fun c => txt.lower c ≠ []

/-- The last entry that is `lower` in lower case. -/
def lastNamed (names : List Str) (lower : Str) : Option Str :=
  (entries txt names).reverse.find? fun c => txt.lower c = lower

/-- **What an index holds of the names it was built from.** -/
structure SubIndex.Represents (idx : SubIndex) (names : List Str) : Prop where
  buckets : ∀ key, idx.buckets key =
    ((entries txt names).filter fun c => bucketKey (txt.lower c) 0 = key).map fun c => (txt.lower c, c)
  all : idx.allLower = (entries txt names).map txt.lower
  canonical : ∀ lower, idx.canonicalOf lower = lastNamed txt names lower

variable {txt} {idx : SubIndex} {names : List Str} {name lower c x : Str}

theorem mem_entries : c ∈ entries txt names ↔ c ∈ names ∧ txt.lower c ≠ [] := by
  simp [entries]

theorem entries_concat : entries txt (names ++ [name]) =
    entries txt names ++ if txt.lower name = [] then [] else [name] := by
  unfold entries
  rw [List.filter_append]
  by_cases h : txt.lower name = [] <;> simp [h]

theorem lastNamed_some (h : lastNamed txt names lower = some c) :
    c ∈ entries txt names ∧ txt.lower c = lower := by
  refine ⟨List.mem_reverse.mp (List.mem_of_find?_eq_some h), ?_⟩
  simpa using List.find?_some h

theorem lastNamed_of_mem (h : x ∈ entries txt names) :
    ∃ c, lastNamed txt names (txt.lower x) = some c := by
  rw [← Option.isSome_iff_exists]
  unfold lastNamed
  rw [List.find?_isSome]
  exact ⟨x, List.mem_reverse.mpr h, by simp⟩

/-- STEP: one name of the loop of `_build_index`. -/
theorem represents_add (h : idx.Represents txt names) (name : Str) :
    (idx.add txt name).Represents txt (names ++ [name]) := by
  by_cases hlower : txt.lower name = []
  · have hadd : idx.add txt name = idx := by
      unfold SubIndex.add
      rw [if_pos hlower]
    have hentries : entries txt (names ++ [name]) = entries txt names := by
      rw [entries_concat, if_pos hlower, List.append_nil]
    rw [hadd]
    exact ⟨by rw [hentries]; exact h.buckets, by rw [hentries]; exact h.all,
      by unfold lastNamed; rw [hentries]; exact h.canonical⟩
  · have hentries : entries txt (names ++ [name]) = entries txt names ++ [name] := by
      rw [entries_concat, if_neg hlower]
    unfold SubIndex.add
    rw [if_neg hlower]
    refine ⟨fun key => ?_, ?_, fun lower => ?_⟩
    · simp only [Function.update_apply]
      rw [hentries, List.filter_append, List.map_append, ← h.buckets]
      by_cases hkey : key = bucketKey (txt.lower name) 0
      · subst hkey
        simp
      · simp [hkey, Ne.symm hkey]
    · simp only
      rw [hentries, h.all, List.map_append]
      rfl
    · simp only [Function.update_apply]
      unfold lastNamed
      rw [hentries, List.reverse_append]
      by_cases hsame : lower = txt.lower name
      · simp [hsame]
      · have hold := h.canonical lower
        unfold lastNamed at hold
        simp [hsame, Ne.symm hsame, hold]

theorem represents_empty : SubIndex.Represents txt {} [] := ⟨fun _ => rfl, rfl, fun _ => rfl⟩

/-- RUN: **a built index represents its names.** -/
theorem represents_buildIndex (names : List Str) : (buildIndex txt names).Represents txt names := by
  have hfold : ∀ (rest : List Str) (idx : SubIndex) (done : List Str), idx.Represents txt done →
      (rest.foldl (SubIndex.add txt) idx).Represents txt (done ++ rest) := by
    intro rest
    induction rest with
    | nil =>
      intro idx done h
      simpa using h
    | cons name rest ih =>
      intro idx done h
      simpa using ih _ _ (represents_add h name)
  exact hfold names {} [] represents_empty

/-- `other` is in one of the three buckets that are looked at for `lower`. -/
def Near (lower other : Str) : Prop :=
  other.take 3 = lower.take 3 ∧ other.length / 4 ≤ lower.length / 4 + 1 ∧
    lower.length / 4 ≤ other.length / 4 + 1

instance (lower : Str) : DecidablePred (Near lower) := fun _ => inferInstanceAs (Decidable (_ ∧ _ ∧ _))

theorem near_self : Near lower lower := ⟨rfl, by omega, by omega⟩

/-- The floor division by four forgives a difference of four characters. -/
theorem near_of_close {other : Str} (htake : other.take 3 = lower.take 3)
    (hlong : other.length ≤ lower.length + 4) (hshort : lower.length ≤ other.length + 4) :
    Near lower other := ⟨htake, by omega, by omega⟩

theorem near_iff_bucketKey {other : Str} :
    (∃ delta ∈ ([-1, 0, 1] : List Int), bucketKey other 0 = bucketKey lower delta) ↔
      Near lower other := by
  unfold bucketKey Near
  simp only [List.mem_cons, List.not_mem_nil, or_false, exists_eq_or_imp, exists_eq_left,
    Prod.mk.injEq]
  constructor
  · intro h
    rcases h with ⟨htake, hlen⟩ | ⟨htake, hlen⟩ | ⟨htake, hlen⟩ <;>
      exact ⟨htake, by omega, by omega⟩
  · intro ⟨htake, hlong, hshort⟩
    simp only [htake, true_and]
    omega

/-- The candidates of `_match`. -/
theorem mem_candidates (h : idx.Represents txt names) (lower : Str) (y : Str × Str) :
    (y ∈ [-1, 0, 1].flatMap fun delta => idx.buckets (bucketKey lower delta)) ↔
      ∃ c ∈ entries txt names, Near lower (txt.lower c) ∧ y = (txt.lower c, c) := by
  simp only [List.mem_flatMap, h.buckets, List.mem_map, List.mem_filter, decide_eq_true_eq]
  constructor
  · intro ⟨delta, hdelta, c, ⟨hc, hkey⟩, hy⟩
    exact ⟨c, hc, near_iff_bucketKey.mp ⟨delta, hdelta, hkey⟩, hy.symm⟩
  · intro ⟨c, hc, hnear, hy⟩
    obtain ⟨delta, hdelta, hkey⟩ := near_iff_bucketKey.mpr hnear
    exact ⟨delta, hdelta, c, ⟨hc, hkey⟩, hy.symm⟩

end Represents

/-! ## 2. The ways `_match` ends -/

/-- The tiers of `whitelist_match_total`. -/
inductive Tier where
  | miss
  | fuzzyLow
  | fuzzyHigh
  | exact
  deriving DecidableEq, Repr

/-- What `_match` counted and returned is a hit. -/
def IsHit (out : Option Tier × Str) : Prop := out.1 ≠ none ∧ out.1 ≠ some .miss

section Tiers

variable (txt : Texts)

/-- `SubIndex.best`, with the tier of a score that is good enough. -/
def SubIndex.bestTier (idx : SubIndex) (choices : List Str) (cutoff : Rat) (tier : Rat → Tier)
    (lower normalized : Str) : Except PyExc (Option Tier × Str) :=
  match txt.extractOne lower choices with
  | some (choice, score) =>
    if cutoff ≤ score then (idx.canonical choice).map fun name => (some (tier score), name)
    else .ok (some .miss, normalized)
  | none => .ok (some .miss, normalized)

/-- The tier of a match in the buckets. -/
def bucketTier (score : Rat) : Tier := if score = 100 then .exact else .fuzzyHigh

/-- `_match`, with the tier it counts; what has nothing to match is not counted. -/
def matchTier (index : WhitelistIndex) (kind : Kind) (raw : Str) : Except PyExc (Option Tier × Str) :=
  if raw = [] then .ok (none, raw)
  else
    let normalized := normalize txt raw
    let lower := txt.lower normalized
    if lower = [] then .ok (none, normalized)
    else
      let (primary, fallback) := kindCutoffs kind
      let idx := index.sub kind
      let candidates := [-1, 0, 1].flatMap fun delta => idx.buckets (bucketKey lower delta)
      if candidates = [] then
        match fallback with
        | none => .ok (some .miss, normalized)
        | some fallback =>
          if idx.allLower = [] then .ok (some .miss, normalized)
          else idx.bestTier txt idx.allLower fallback (fun _ => .fuzzyLow) lower normalized
      else idx.bestTier txt (candidates.map (·.1)) primary bucketTier lower normalized

theorem best_eq_bestTier (idx : SubIndex) (choices : List Str) (cutoff : Rat) (tier : Rat → Tier)
    (lower normalized : Str) : idx.best txt choices cutoff lower normalized =
      (idx.bestTier txt choices cutoff tier lower normalized).map Prod.snd := by
  unfold SubIndex.best SubIndex.bestTier
  cases txt.extractOne lower choices with
  | none => rfl
  | some x =>
    obtain ⟨choice, score⟩ := x
    simp only
    split
    · cases idx.canonical choice <;> rfl
    · rfl

/-- The tier does not change what is returned. -/
theorem matchKind_eq_matchTier (index : WhitelistIndex) (kind : Kind) (raw : Str) :
    matchKind txt index kind raw = (matchTier txt index kind raw).map Prod.snd := by
  unfold matchKind matchTier
  simp only
  split
  · rfl
  split
  · rfl
  split
  · cases (kindCutoffs kind).2 with
    | none => rfl
    | some fallback =>
      simp only
      split
      · rfl
      · exact best_eq_bestTier txt _ _ _ _ _ _
  · exact best_eq_bestTier txt _ _ _ _ _ _

end Tiers

/-- `process.extractOne` under a scorer: the first of the choices with the largest score. -/
def firstBest (score : Str → Str → Rat) (query : Str) (choices : List Str) : Option (Str × Rat) :=
  (choices.argmax (score query)).map fun choice => (choice, score query choice)

/-- Choices are extracted under this scorer, into 0 to 100. -/
structure Texts.Scored (txt : Texts) (score : Str → Str → Rat) : Prop where
  extractOne : txt.extractOne = firstBest score
  nonneg : ∀ a b, 0 ≤ score a b
  le_hundred : ∀ a b, score a b ≤ 100

section Exits

variable (txt : Texts) (score : Str → Str → Rat) (names : List Str) (kind : Kind) (raw : Str)

/-- What `_match` looks for. -/
def query : Str := txt.lower (normalize txt raw)

/-- The score of a name. -/
def scoreOf (name : Str) : Rat := score (query txt raw) (txt.lower name)

/-- **The ways a call of `_match` ends**, over the index of `names`. -/
inductive Exit : Option Tier × Str → Prop
  | empty (hraw : raw = []) : Exit (none, raw)
  | blank (hquery : query txt raw = []) : Exit (none, normalize txt raw)
  | bucketHit (name : Str) (hquery : query txt raw ≠ [])
      (hlast : lastNamed txt names (txt.lower name) = some name)
      (hnear : Near (query txt raw) (txt.lower name))
      (hbest : ∀ x ∈ entries txt names, Near (query txt raw) (txt.lower x) →
        scoreOf txt score raw x ≤ scoreOf txt score raw name)
      (hcutoff : (kindCutoffs kind).1 ≤ scoreOf txt score raw name) :
      Exit (some (bucketTier (scoreOf txt score raw name)), name)
  | bucketMiss (hquery : query txt raw ≠ [])
      (hnear : ∃ x ∈ entries txt names, Near (query txt raw) (txt.lower x))
      (hlow : ∀ x ∈ entries txt names, Near (query txt raw) (txt.lower x) →
        scoreOf txt score raw x < (kindCutoffs kind).1) :
      Exit (some .miss, normalize txt raw)
  | scanHit (name : Str) (fallback : Rat) (hquery : query txt raw ≠ [])
      (hfar : ∀ x ∈ entries txt names, ¬ Near (query txt raw) (txt.lower x))
      (hfallback : (kindCutoffs kind).2 = some fallback)
      (hlast : lastNamed txt names (txt.lower name) = some name)
      (hbest : ∀ x ∈ entries txt names, scoreOf txt score raw x ≤ scoreOf txt score raw name)
      (hcutoff : fallback ≤ scoreOf txt score raw name) :
      Exit (some .fuzzyLow, name)
  | scanMiss (hquery : query txt raw ≠ [])
      (hfar : ∀ x ∈ entries txt names, ¬ Near (query txt raw) (txt.lower x))
      (hlow : ∀ fallback, (kindCutoffs kind).2 = some fallback →
        ∀ x ∈ entries txt names, scoreOf txt score raw x < fallback) :
      Exit (some .miss, normalize txt raw)

variable {txt score names kind raw} {idx : SubIndex} {index : WhitelistIndex}

/-- **The best of some entries**: its last name, or none of them is good enough. -/
theorem bestTier_spec (hscored : txt.Scored score) (hidx : idx.Represents txt names)
    {choices : List Str} (hne : choices ≠ [])
    (hchoices : ∀ lower ∈ choices, ∃ x ∈ entries txt names, txt.lower x = lower) (cutoff : Rat)
    (tier : Rat → Tier) (raw normalized : Str) :
    (∃ name, lastNamed txt names (txt.lower name) = some name ∧ txt.lower name ∈ choices ∧
      (∀ lower ∈ choices, score (query txt raw) lower ≤ scoreOf txt score raw name) ∧
      cutoff ≤ scoreOf txt score raw name ∧
      idx.bestTier txt choices cutoff tier (query txt raw) normalized =
        .ok (some (tier (scoreOf txt score raw name)), name)) ∨
    ((∀ lower ∈ choices, score (query txt raw) lower < cutoff) ∧
      idx.bestTier txt choices cutoff tier (query txt raw) normalized =
        .ok (some .miss, normalized)) := by
  unfold SubIndex.bestTier
  rw [hscored.extractOne]
  unfold firstBest
  cases hbest : choices.argmax (score (query txt raw)) with
  | none => exact absurd (List.argmax_eq_none.mp hbest) hne
  | some choice =>
    have hmax : ∀ lower ∈ choices, score (query txt raw) lower ≤ score (query txt raw) choice :=
      fun lower hmem => List.le_of_mem_argmax hmem hbest
    simp only [Option.map_some]
    by_cases hcutoff : cutoff ≤ score (query txt raw) choice
    · have hmem := List.argmax_mem hbest
      obtain ⟨x, hx, rfl⟩ := hchoices choice hmem
      obtain ⟨name, hname⟩ := lastNamed_of_mem hx
      have hlower := (lastNamed_some hname).2
      refine Or.inl ⟨name, by rw [hlower]; exact hname, by rw [hlower]; exact hmem, ?_, ?_, ?_⟩
      · unfold scoreOf
        rw [hlower]
        exact hmax
      · unfold scoreOf
        rw [hlower]
        exact hcutoff
      · rw [if_pos hcutoff]
        unfold SubIndex.canonical scoreOf
        rw [hidx.canonical, hname, hlower]
        rfl
    · refine Or.inr ⟨fun lower hmem => lt_of_le_of_lt (hmax lower hmem) (not_le.mp hcutoff), ?_⟩
      rw [if_neg hcutoff]

/-- What is scanned when there is no candidate. -/
theorem scan_exit (hscored : txt.Scored score) (hidx : idx.Represents txt names)
    (hquery : query txt raw ≠ [])
    (hfar : ∀ x ∈ entries txt names, ¬ Near (query txt raw) (txt.lower x)) {fallback : Rat}
    (hfallback : (kindCutoffs kind).2 = some fallback) (hall : idx.allLower ≠ []) :
    ∃ out, idx.bestTier txt idx.allLower fallback (fun _ => .fuzzyLow) (query txt raw)
      (normalize txt raw) = .ok out ∧ Exit txt score names kind raw out := by
  have hin : ∀ x ∈ entries txt names, txt.lower x ∈ idx.allLower := by
    intro x hx
    rw [hidx.all]
    exact List.mem_map_of_mem hx
  have hout : ∀ lower ∈ idx.allLower, ∃ x ∈ entries txt names, txt.lower x = lower := by
    intro lower hlower
    rw [hidx.all] at hlower
    exact List.mem_map.mp hlower
  rcases bestTier_spec hscored hidx hall hout fallback (fun _ => .fuzzyLow) raw
    (normalize txt raw) with ⟨name, hlast, -, hbest, hcutoff, heq⟩ | ⟨hlow, heq⟩
  · exact ⟨_, heq, .scanHit name fallback hquery hfar hfallback hlast
      (fun x hx => hbest _ (hin x hx)) hcutoff⟩
  · refine ⟨_, heq, .scanMiss hquery hfar fun fallback' h x hx => ?_⟩
    obtain rfl : fallback = fallback' := Option.some.inj (hfallback.symm.trans h)
    exact hlow _ (hin x hx)

/-- The candidates, when there are some. -/
theorem bucket_exit (hscored : txt.Scored score) (hidx : idx.Represents txt names)
    (hquery : query txt raw ≠ []) {candidates : List (Str × Str)} (hne : candidates ≠ [])
    (hmem : ∀ y, y ∈ candidates ↔
      ∃ x ∈ entries txt names, Near (query txt raw) (txt.lower x) ∧ y = (txt.lower x, x)) :
    ∃ out, idx.bestTier txt (candidates.map (·.1)) (kindCutoffs kind).1 bucketTier (query txt raw)
      (normalize txt raw) = .ok out ∧ Exit txt score names kind raw out := by
  have hin : ∀ x ∈ entries txt names, Near (query txt raw) (txt.lower x) →
      txt.lower x ∈ candidates.map (·.1) := fun x hx hnear =>
    List.mem_map.mpr ⟨_, (hmem _).mpr ⟨x, hx, hnear, rfl⟩, rfl⟩
  have hout : ∀ lower ∈ candidates.map (·.1), ∃ x ∈ entries txt names,
      Near (query txt raw) (txt.lower x) ∧ txt.lower x = lower := by
    intro lower hlower
    obtain ⟨y, hy, rfl⟩ := List.mem_map.mp hlower
    obtain ⟨x, hx, hnear, rfl⟩ := (hmem y).mp hy
    exact ⟨x, hx, hnear, rfl⟩
  rcases bestTier_spec hscored hidx (by simpa using hne)
    (fun lower h => (hout lower h).imp fun _ h => ⟨h.1, h.2.2⟩) (kindCutoffs kind).1 bucketTier
    raw (normalize txt raw) with ⟨name, hlast, hname, hbest, hcutoff, heq⟩ | ⟨hlow, heq⟩
  · obtain ⟨x, _, hnear, hlower⟩ := hout _ hname
    refine ⟨_, heq, .bucketHit name hquery hlast ?_ (fun x hx h => hbest _ (hin x hx h)) hcutoff⟩
    rw [← hlower]
    exact hnear
  · obtain ⟨y, hy⟩ := List.exists_mem_of_ne_nil _ hne
    obtain ⟨x, hx, hnear, _⟩ := (hmem y).mp hy
    exact ⟨_, heq, .bucketMiss hquery ⟨x, hx, hnear⟩ fun x hx h => hlow _ (hin x hx h)⟩

/-- **Every call of `_match` ends in one of these ways**; no lookup fails. -/
theorem matchTier_exit (hscored : txt.Scored score) (hidx : (index.sub kind).Represents txt names)
    (raw : Str) : ∃ out, matchTier txt index kind raw = .ok out ∧
      Exit txt score names kind raw out := by
  have hmem := mem_candidates hidx (query txt raw)
  unfold matchTier
  by_cases hraw : raw = []
  · rw [if_pos hraw]
    exact ⟨_, rfl, .empty hraw⟩
  rw [if_neg hraw]
  simp only
  by_cases hquery : txt.lower (normalize txt raw) = []
  · rw [if_pos hquery]
    exact ⟨_, rfl, .blank hquery⟩
  rw [if_neg hquery]
  split
  next hnone =>
    have hfar : ∀ x ∈ entries txt names, ¬ Near (query txt raw) (txt.lower x) := by
      intro x hx hnear
      have hin := (hmem _).mpr ⟨x, hx, hnear, rfl⟩
      unfold query at hin
      rw [hnone] at hin
      exact List.not_mem_nil hin
    cases hfallback : (kindCutoffs kind).2 with
    | none =>
      refine ⟨_, rfl, .scanMiss hquery hfar fun fallback h => ?_⟩
      rw [hfallback] at h
      simp at h
    | some fallback =>
      simp only
      by_cases hall : (index.sub kind).allLower = []
      · rw [if_pos hall]
        refine ⟨_, rfl, .scanMiss hquery hfar fun _ _ x hx => ?_⟩
        rw [hidx.all, List.map_eq_nil_iff] at hall
        rw [hall] at hx
        exact absurd hx List.not_mem_nil
      · rw [if_neg hall]
        exact scan_exit hscored hidx hquery hfar hfallback hall
  next hsome => exact bucket_exit hscored hidx hquery hsome hmem

end Exits

namespace Sample

/-- Texts in ASCII, with this scorer. -/
def scoring (score : Str → Str → Rat) : Texts :=
  { texts with extractOne := firstBest score }

/-- 100 for equal texts. -/
def exactScore (a b : Str) : Rat := if a = b then 100 else 0

theorem scored_exact : (scoring exactScore).Scored exactScore where
  extractOne := rfl
  nonneg a b := by unfold exactScore; split <;> decide
  le_hundred a b := by unfold exactScore; split <;> decide

/-- 70 for everything. -/
def flatScore (_ _ : Str) : Rat := 70

theorem scored_flat : (scoring flatScore).Scored flatScore where
  extractOne := rfl
  nonneg _ _ := by unfold flatScore; decide
  le_hundred _ _ := by unfold flatScore; decide

/-- 100 for nothing, 60 for anything else. -/
def blankScore (_ b : Str) : Rat := if b = [] then 100 else 60

theorem scored_blank : (scoring blankScore).Scored blankScore where
  extractOne := rfl
  nonneg a b := by unfold blankScore; split <;> decide
  le_hundred a b := by unfold blankScore; split <;> decide

end Sample

/-! ## 3. The reference definition -/

section Reference

variable {txt : Texts} {score : Str → Str → Rat}

/-- The index built from these names, for either kind. -/
def indexOf (txt : Texts) (names : List Str) : WhitelistIndex := build txt fun _ => some names

theorem represents_indexOf (names : List Str) (kind : Kind) :
    ((indexOf txt names).sub kind).Represents txt names := represents_buildIndex names

/-- **The reference definition of `_match`**, which considers some of the names: a miss returns the
    normalized text; a hit returns a name with the best score among the candidates, or for stores
    without a candidate among all, and that score is good enough. A name that is close and scores
    high makes it a hit. -/
structure MeetsReference (txt : Texts) (score : Str → Str → Rat) (considered names : List Str)
    (kind : Kind) (raw : Str) (out : Option Tier × Str) : Prop where
  miss : ¬ IsHit out → out.2 = normalize txt raw
  hit : IsHit out → out.2 ∈ names ∧
    ((Near (query txt raw) (txt.lower out.2) ∧
      (∀ x ∈ considered, Near (query txt raw) (txt.lower x) →
        scoreOf txt score raw x ≤ scoreOf txt score raw out.2) ∧
      (kindCutoffs kind).1 ≤ scoreOf txt score raw out.2) ∨
    (kind = .store ∧ (∀ x ∈ considered, ¬ Near (query txt raw) (txt.lower x)) ∧
      (∀ x ∈ considered, scoreOf txt score raw x ≤ scoreOf txt score raw out.2) ∧
      ∃ fallback, (kindCutoffs kind).2 = some fallback ∧
        fallback ≤ scoreOf txt score raw out.2))
  close : (∃ x ∈ considered, (txt.lower x).take 3 = (query txt raw).take 3 ∧
      (txt.lower x).length ≤ (query txt raw).length + 4 ∧
      (query txt raw).length ≤ (txt.lower x).length + 4 ∧
      (kindCutoffs kind).1 ≤ scoreOf txt score raw x) → IsHit out

theorem isHit_bucketTier {x : Rat} {name : Str} : IsHit (some (bucketTier x), name) := by
  unfold IsHit bucketTier
  constructor
  · simp
  · by_cases h : x = 100 <;> simp [h]

theorem isHit_fuzzyLow {name : Str} : IsHit (some .fuzzyLow, name) := by simp [IsHit]

theorem not_isHit_miss {name : Str} : ¬ IsHit (some .miss, name) := by simp [IsHit]

theorem not_isHit_none {name : Str} : ¬ IsHit (none, name) := by simp [IsHit]

/-- An entry is near a text that is something only. -/
theorem query_ne_nil {names : List Str} {raw x : Str} (hx : x ∈ entries txt names)
    (htake : (txt.lower x).take 3 = (query txt raw).take 3) : query txt raw ≠ [] := by
  intro hquery
  rw [hquery, List.take_nil, List.take_eq_nil_iff] at htake
  exact (mem_entries.mp hx).2 (htake.resolve_left (by omega))

/-- NFC makes nothing of nothing, and lower case of nothing else. -/
structure Texts.KeepsEmpty (txt : Texts) : Prop where
  nfc : txt.nfc [] = []
  lower : ∀ s, txt.lower s = [] ↔ s = []

theorem Texts.KeepsEmpty.normalize (h : txt.KeepsEmpty) : normalize txt [] = [] := by
  unfold InvoiceOcr.normalize
  rw [h.nfc]
  rfl

theorem Texts.KeepsEmpty.query (h : txt.KeepsEmpty) : query txt [] = [] := by
  unfold InvoiceOcr.query
  rw [h.normalize]
  exact (h.lower []).mpr rfl

variable {names : List Str} {kind : Kind} {raw : Str} {out : Option Tier × Str}

/-- Stores alone have a fallback. -/
theorem kind_of_fallback {fallback : Rat} (h : (kindCutoffs kind).2 = some fallback) :
    kind = .store := by
  cases kind with
  | store => rfl
  | product => simp [kindCutoffs] at h

/-- **The ways to end meet the reference**, which considers the entries. -/
theorem Exit.meets (hempty : txt.KeepsEmpty) (h : Exit txt score names kind raw out) :
    MeetsReference txt score (entries txt names) names kind raw out := by
  cases h with
  | empty hraw =>
    subst hraw
    exact ⟨fun _ => hempty.normalize.symm, fun hhit => absurd hhit not_isHit_none,
      fun ⟨x, hx, htake, _⟩ => absurd hempty.query (query_ne_nil hx htake)⟩
  | blank hquery =>
    exact ⟨fun _ => rfl, fun hhit => absurd hhit not_isHit_none,
      fun ⟨x, hx, htake, _⟩ => absurd hquery (query_ne_nil hx htake)⟩
  | bucketHit name hquery hlast hnear hbest hcutoff =>
    exact ⟨fun hmiss => absurd isHit_bucketTier hmiss,
      fun _ => ⟨(mem_entries.mp (lastNamed_some hlast).1).1, Or.inl ⟨hnear, hbest, hcutoff⟩⟩,
      fun _ => isHit_bucketTier⟩
  | bucketMiss hquery hnear hlow =>
    refine ⟨fun _ => rfl, fun hhit => absurd hhit not_isHit_miss, ?_⟩
    intro ⟨x, hx, htake, hlong, hshort, hcutoff⟩
    exact absurd hcutoff (not_le.mpr (hlow x hx (near_of_close htake hlong hshort)))
  | scanHit name fallback hquery hfar hfallback hlast hbest hcutoff =>
    exact ⟨fun hmiss => absurd isHit_fuzzyLow hmiss,
      fun _ => ⟨(mem_entries.mp (lastNamed_some hlast).1).1,
        Or.inr ⟨kind_of_fallback hfallback, hfar, hbest, fallback, hfallback, hcutoff⟩⟩,
      fun _ => isHit_fuzzyLow⟩
  | scanMiss hquery hfar hlow =>
    refine ⟨fun _ => rfl, fun hhit => absurd hhit not_isHit_miss, ?_⟩
    intro ⟨x, hx, htake, hlong, hshort, _⟩
    exact absurd (near_of_close htake hlong hshort) (hfar x hx)

/-- **`_match` meets its reference definition** for every list of names, kind, text and scorer, the
    names that are nothing in lower case left out of consideration. -/
theorem match_meets_reference (hscored : txt.Scored score) (hempty : txt.KeepsEmpty)
    (names : List Str) (kind : Kind) (raw : Str) :
    ∃ out, matchTier txt (indexOf txt names) kind raw = .ok out ∧
      matchKind txt (indexOf txt names) kind raw = .ok out.2 ∧
      MeetsReference txt score (names.filter fun c => txt.lower c ≠ []) names kind raw out := by
  obtain ⟨out, hout, hexit⟩ := matchTier_exit hscored (represents_indexOf names kind) raw
  refine ⟨out, hout, ?_, hexit.meets hempty⟩
  rw [matchKind_eq_matchTier, hout]
  rfl

end Reference

theorem Sample.keepsEmpty (score : Str → Str → Rat) : (Sample.scoring score).KeepsEmpty :=
  ⟨rfl, fun _ => List.map_eq_nil_iff⟩

theorem match_meets_reference_exact :
    ∃ out, matchTier (Sample.scoring Sample.exactScore)
        (indexOf (Sample.scoring Sample.exactScore) ["Aeon".toList]) .store "aeon".toList = .ok out ∧
      matchKind (Sample.scoring Sample.exactScore)
        (indexOf (Sample.scoring Sample.exactScore) ["Aeon".toList]) .store "aeon".toList =
          .ok out.2 ∧
      MeetsReference (Sample.scoring Sample.exactScore) Sample.exactScore
        (["Aeon".toList].filter fun c => (Sample.scoring Sample.exactScore).lower c ≠ [])
        ["Aeon".toList] .store "aeon".toList out :=
  match_meets_reference Sample.scored_exact (Sample.keepsEmpty _) _ _ _

/-- **An empty name is never considered**, however high the scorer puts it. -/
theorem empty_name_left_out :
    ¬ ∀ (txt : Texts) (score : Str → Str → Rat), txt.Scored score → txt.KeepsEmpty →
      ∀ (names : List Str) (kind : Kind) (raw : Str),
        ∃ out, matchTier txt (indexOf txt names) kind raw = .ok out ∧
          MeetsReference txt score names names kind raw out := by
  intro h
  obtain ⟨out, hout, href⟩ := h _ _ Sample.scored_blank (Sample.keepsEmpty _)
    [[], "xyz".toList] .store "abc".toList
  have hscan : matchTier (Sample.scoring Sample.blankScore)
      (indexOf (Sample.scoring Sample.blankScore) [[], "xyz".toList]) .store "abc".toList =
        .ok (some .fuzzyLow, "xyz".toList) := by decide +kernel
  obtain rfl : (some .fuzzyLow, "xyz".toList) = out := Except.ok.inj (hscan.symm.trans hout)
  rcases (href.hit isHit_fuzzyLow).2 with ⟨hnear, _⟩ | ⟨_, _, hbest, _⟩
  · exact absurd hnear (by decide +kernel)
  · exact absurd (hbest [] (by simp)) (by decide +kernel)

/-! ## 4. Growing a whitelist -/

section Growth

variable {txt : Texts} {score : Str → Str → Rat} {names : List Str} {kind : Kind} {raw e : Str}
  {out : Option Tier × Str}

/-- Some candidate reaches the primary cutoff. -/
def NearHit (txt : Texts) (score : Str → Str → Rat) (names : List Str) (kind : Kind) (raw : Str) :
    Prop :=
  ∃ x ∈ entries txt names, Near (query txt raw) (txt.lower x) ∧
    (kindCutoffs kind).1 ≤ scoreOf txt score raw x

/-- There is no candidate, and some name reaches the cutoff of the full scan. -/
def ScanHit (txt : Texts) (score : Str → Str → Rat) (names : List Str) (kind : Kind) (raw : Str) :
    Prop :=
  (∀ x ∈ entries txt names, ¬ Near (query txt raw) (txt.lower x)) ∧
    ∃ fallback, (kindCutoffs kind).2 = some fallback ∧
      ∃ x ∈ entries txt names, fallback ≤ scoreOf txt score raw x

/-- **When a call is a hit**, read off the names. -/
theorem Exit.isHit_iff (hempty : txt.KeepsEmpty) (h : Exit txt score names kind raw out) :
    IsHit out ↔ query txt raw ≠ [] ∧ (NearHit txt score names kind raw ∨
      ScanHit txt score names kind raw) := by
  cases h with
  | empty hraw =>
    subst hraw
    exact ⟨fun hhit => absurd hhit not_isHit_none, fun hq => absurd hempty.query hq.1⟩
  | blank hquery =>
    exact ⟨fun hhit => absurd hhit not_isHit_none, fun hq => absurd hquery hq.1⟩
  | bucketHit name hquery hlast hnear hbest hcutoff =>
    have hname := (lastNamed_some hlast).1
    exact ⟨fun _ => ⟨hquery, Or.inl ⟨name, hname, hnear, hcutoff⟩⟩, fun _ => isHit_bucketTier⟩
  | bucketMiss hquery hnear hlow =>
    refine ⟨fun hhit => absurd hhit not_isHit_miss, fun hq => ?_⟩
    obtain ⟨x, hx, hxnear⟩ := hnear
    rcases hq.2 with ⟨y, hy, hynear, hcutoff⟩ | ⟨hfar, _⟩
    · exact absurd hcutoff (not_le.mpr (hlow y hy hynear))
    · exact absurd hxnear (hfar x hx)
  | scanHit name fallback hquery hfar hfallback hlast hbest hcutoff =>
    have hname := (lastNamed_some hlast).1
    exact ⟨fun _ => ⟨hquery, Or.inr ⟨hfar, fallback, hfallback, name, hname, hcutoff⟩⟩,
      fun _ => isHit_fuzzyLow⟩
  | scanMiss hquery hfar hlow =>
    refine ⟨fun hhit => absurd hhit not_isHit_miss, fun hq => ?_⟩
    rcases hq.2 with ⟨y, hy, hynear, _⟩ | ⟨_, fallback, hfallback, y, hy, hcutoff⟩
    · exact absurd hynear (hfar y hy)
    · exact absurd hcutoff (not_le.mpr (hlow fallback hfallback y hy))

theorem mem_entries_append {x : Str} : x ∈ entries txt (names ++ [e]) ↔
    x ∈ entries txt names ∨ (txt.lower e ≠ [] ∧ x = e) := by
  simp only [mem_entries, List.mem_append, List.mem_singleton]
  constructor
  · intro hx
    rcases hx with ⟨hx | rfl, hne⟩
    · exact Or.inl ⟨hx, hne⟩
    · exact Or.inr ⟨hne, rfl⟩
  · intro hx
    rcases hx with ⟨hx, hne⟩ | ⟨hne, rfl⟩
    · exact ⟨Or.inl hx, hne⟩
    · exact ⟨Or.inr rfl, hne⟩

/-- A candidate stays one. -/
theorem NearHit.append (h : NearHit txt score names kind raw) :
    NearHit txt score (names ++ [e]) kind raw := by
  obtain ⟨x, hx, hnear, hcutoff⟩ := h
  exact ⟨x, mem_entries_append.mpr (Or.inl hx), hnear, hcutoff⟩

/-- The full scan stays one unless the new name is a candidate. -/
theorem ScanHit.append (h : ScanHit txt score names kind raw)
    (hnew : ¬ (txt.lower e ≠ [] ∧ Near (query txt raw) (txt.lower e))) :
    ScanHit txt score (names ++ [e]) kind raw := by
  obtain ⟨hfar, fallback, hfallback, x, hx, hcutoff⟩ := h
  refine ⟨fun y hy => ?_, fallback, hfallback, x, mem_entries_append.mpr (Or.inl hx), hcutoff⟩
  rcases mem_entries_append.mp hy with hy | ⟨hne, rfl⟩
  · exact hfar y hy
  · exact fun hnear => hnew ⟨hne, hnear⟩

/-- The first candidate decides alone. -/
theorem hit_of_first (hfar : ∀ x ∈ entries txt names, ¬ Near (query txt raw) (txt.lower x))
    (hne : txt.lower e ≠ []) (hnear : Near (query txt raw) (txt.lower e)) :
    NearHit txt score (names ++ [e]) kind raw ∨ ScanHit txt score (names ++ [e]) kind raw ↔
      (kindCutoffs kind).1 ≤ scoreOf txt score raw e := by
  have he : e ∈ entries txt (names ++ [e]) := mem_entries_append.mpr (Or.inr ⟨hne, rfl⟩)
  refine ⟨fun hhit => ?_, fun hcutoff => Or.inl ⟨e, he, hnear, hcutoff⟩⟩
  rcases hhit with ⟨y, hy, hynear, hcutoff⟩ | ⟨hfar', _⟩
  · rcases mem_entries_append.mp hy with hy | ⟨_, rfl⟩
    · exact absurd hynear (hfar y hy)
    · exact hcutoff
  · exact absurd hnear (hfar' e he)

/-- **One more name loses a match exactly by becoming the first candidate of a store name** without
    being good enough for one. -/
theorem growth_keeps_hit (hscored : txt.Scored score) (hempty : txt.KeepsEmpty) (names : List Str)
    (e : Str) (kind : Kind) (raw : Str) :
    ∃ out out', matchTier txt (indexOf txt names) kind raw = .ok out ∧
      matchTier txt (indexOf txt (names ++ [e])) kind raw = .ok out' ∧
      (IsHit out → (IsHit out' ↔ ¬ (kind = .store ∧
        (∀ x ∈ names, txt.lower x ≠ [] → ¬ Near (query txt raw) (txt.lower x)) ∧
        txt.lower e ≠ [] ∧ Near (query txt raw) (txt.lower e) ∧
        scoreOf txt score raw e < (kindCutoffs kind).1))) := by
  obtain ⟨out, hout, hexit⟩ := matchTier_exit hscored (represents_indexOf names kind) raw
  obtain ⟨out', hout', hexit'⟩ := matchTier_exit hscored (represents_indexOf (names ++ [e]) kind) raw
  refine ⟨out, out', hout, hout', fun hhit => ?_⟩
  rw [hexit.isHit_iff hempty] at hhit
  obtain ⟨hquery, hhit⟩ := hhit
  rw [hexit'.isHit_iff hempty, and_iff_right hquery]
  rcases hhit with hhit | hhit
  · refine iff_of_true (Or.inl hhit.append) fun hlost => ?_
    obtain ⟨x, hx, hnear, -⟩ := hhit
    exact hlost.2.1 x (mem_entries.mp hx).1 (mem_entries.mp hx).2 hnear
  · by_cases hnew : txt.lower e ≠ [] ∧ Near (query txt raw) (txt.lower e)
    · obtain ⟨hfar, fallback, hfallback, -⟩ := hhit
      have hnone : ∀ x ∈ names, txt.lower x ≠ [] → ¬ Near (query txt raw) (txt.lower x) :=
        fun x hx hne => hfar x (mem_entries.mpr ⟨hx, hne⟩)
      rw [hit_of_first hfar hnew.1 hnew.2]
      constructor
      · intro hcutoff hlost
        exact absurd hcutoff (not_le.mpr hlost.2.2.2.2)
      · intro hgood
        by_contra hlow
        exact hgood ⟨kind_of_fallback hfallback, hnone, hnew.1, hnew.2, not_le.mp hlow⟩
    · refine iff_of_true (Or.inr (hhit.append hnew)) fun hlost => ?_
      exact hnew ⟨hlost.2.2.1, hlost.2.2.2.1⟩

end Growth

theorem growth_keeps_hit_exact :
    ∃ out out', matchTier (Sample.scoring Sample.exactScore)
        (indexOf (Sample.scoring Sample.exactScore) ["Aeon".toList]) .store "aeon".toList = .ok out ∧
      matchTier (Sample.scoring Sample.exactScore)
        (indexOf (Sample.scoring Sample.exactScore) (["Aeon".toList] ++ ["AEON".toList])) .store
          "aeon".toList = .ok out' ∧
      (IsHit out → (IsHit out' ↔ ¬ (Kind.store = .store ∧
        (∀ x ∈ ["Aeon".toList], (Sample.scoring Sample.exactScore).lower x ≠ [] →
          ¬ Near (query (Sample.scoring Sample.exactScore) "aeon".toList)
            ((Sample.scoring Sample.exactScore).lower x)) ∧
        (Sample.scoring Sample.exactScore).lower "AEON".toList ≠ [] ∧
        Near (query (Sample.scoring Sample.exactScore) "aeon".toList)
          ((Sample.scoring Sample.exactScore).lower "AEON".toList) ∧
        scoreOf (Sample.scoring Sample.exactScore) Sample.exactScore "aeon".toList "AEON".toList <
          (kindCutoffs .store).1))) :=
  growth_keeps_hit Sample.scored_exact (Sample.keepsEmpty _) _ _ _ _

/-- **A store name found by the full scan is lost** when a name of the same first letters, under the
    high cutoff, is put on the list. -/
theorem growth_loses_hit :
    ¬ ∀ (txt : Texts) (score : Str → Str → Rat), txt.Scored score → txt.KeepsEmpty →
      ∀ (names : List Str) (e : Str) (kind : Kind) (raw : Str) (out out' : Option Tier × Str),
        matchTier txt (indexOf txt names) kind raw = .ok out →
        matchTier txt (indexOf txt (names ++ [e])) kind raw = .ok out' → IsHit out → IsHit out' := by
  intro h
  have hfirst : matchTier (Sample.scoring Sample.flatScore)
      (indexOf (Sample.scoring Sample.flatScore) ["Mart Coop".toList]) .store "Coop Mart".toList =
        .ok (some .fuzzyLow, "Mart Coop".toList) := by decide +kernel
  have hgrown : matchTier (Sample.scoring Sample.flatScore)
      (indexOf (Sample.scoring Sample.flatScore) (["Mart Coop".toList] ++ ["Coolmate".toList])) .store
        "Coop Mart".toList = .ok (some .miss, "Coop Mart".toList) := by decide +kernel
  exact not_isHit_miss (h _ _ Sample.scored_flat (Sample.keepsEmpty _) _ _ _ _ _ _ hfirst hgrown
    isHit_fuzzyLow)

/-! ## 5. Matching twice -/

section Idempotent

variable {txt : Texts} {score : Str → Str → Rat} {names : List Str} {kind : Kind}

/-- NFC as the standard has it: once is enough, and trimming does not undo it. -/
structure Texts.NfcStable (txt : Texts) : Prop where
  idem : ∀ s, txt.nfc (txt.nfc s) = txt.nfc s
  strip : ∀ s, txt.nfc (strip (txt.nfc s)) = strip (txt.nfc s)

theorem Texts.NfcStable.normalize_normalize (h : txt.NfcStable) (raw : Str) :
    normalize txt (normalize txt raw) = normalize txt raw := by
  unfold normalize
  rw [h.strip, strip_strip]

/-- The scorer gives 100 to equal texts and to no others. -/
def ExactHundred (score : Str → Str → Rat) : Prop := ∀ a b, score a b = 100 ↔ a = b

theorem primary_le_hundred : (kindCutoffs kind).1 ≤ 100 := by
  cases kind with
  | store => decide
  | product => decide

/-- What a hit returns is the last of its names. -/
theorem Exit.lastNamed_of_isHit {raw : Str} {out : Option Tier × Str}
    (h : Exit txt score names kind raw out) (hhit : IsHit out) :
    lastNamed txt names (txt.lower out.2) = some out.2 := by
  cases h with
  | empty hraw => exact absurd hhit not_isHit_none
  | blank hquery => exact absurd hhit not_isHit_none
  | bucketHit name hquery hlast hnear hbest hcutoff => exact hlast
  | bucketMiss hquery hnear hlow => exact absurd hhit not_isHit_miss
  | scanHit name fallback hquery hfar hfallback hlast hbest hcutoff => exact hlast
  | scanMiss hquery hfar hlow => exact absurd hhit not_isHit_miss

/-- **An entry that is its own normal form** is matched to the last of its names: it is in its own
    bucket, and nothing else there has its score. -/
theorem Exit.self (hscored : txt.Scored score) (hexact : ExactHundred score)
    (hempty : txt.KeepsEmpty) {name : Str} {out : Option Tier × Str}
    (hnormal : normalize txt name = name) (hname : name ∈ entries txt names)
    (h : Exit txt score names kind name out) :
    lastNamed txt names (txt.lower name) = some out.2 := by
  have hquery : query txt name = txt.lower name := by
    unfold query
    rw [hnormal]
  have hnear : Near (query txt name) (txt.lower name) := by
    rw [hquery]
    exact near_self
  have hscore : scoreOf txt score name name = 100 := by
    unfold scoreOf
    rw [hquery]
    exact (hexact _ _).mpr rfl
  have hne := (mem_entries.mp hname).2
  cases h with
  | empty hraw => exact absurd ((hempty.lower name).mpr hraw) hne
  | blank hblank =>
    rw [hquery] at hblank
    exact absurd hblank hne
  | bucketHit best hquery' hlast hnear' hbest hcutoff =>
    have hle := hbest name hname hnear
    rw [hscore] at hle
    have hsame := (hexact _ _).mp (le_antisymm (hscored.le_hundred _ _) hle)
    rw [← hquery, hsame]
    exact hlast
  | bucketMiss hquery' hsome hlow =>
    have hlt := hlow name hname hnear
    rw [hscore] at hlt
    exact absurd primary_le_hundred (not_le.mpr hlt)
  | scanHit best fallback hquery' hfar hfallback hlast hbest hcutoff =>
    exact absurd hnear (hfar name hname)
  | scanMiss hquery' hfar hlow => exact absurd hnear (hfar name hname)

/-- **Name matching is idempotent** over every list of names in normal form. -/
theorem match_idempotent (hscored : txt.Scored score) (hexact : ExactHundred score)
    (hempty : txt.KeepsEmpty) (hnfc : txt.NfcStable) {names : List Str}
    (hnames : ∀ name ∈ names, txt.nfc name = name ∧ strip name = name) (kind : Kind) (raw : Str) :
    ∃ name, matchKind txt (indexOf txt names) kind raw = .ok name ∧
      matchKind txt (indexOf txt names) kind name = .ok name := by
  obtain ⟨out, hout, hexit⟩ := matchTier_exit hscored (represents_indexOf names kind) raw
  obtain ⟨again, hagain, hexit'⟩ :=
    matchTier_exit hscored (represents_indexOf names kind) out.2
  refine ⟨out.2, by rw [matchKind_eq_matchTier, hout]; rfl, ?_⟩
  have hsame : again.2 = out.2 := by
    by_cases hhit : IsHit out
    · have hlast := hexit.lastNamed_of_isHit hhit
      have hentry := (lastNamed_some hlast).1
      have hname := hnames _ (mem_entries.mp hentry).1
      have hnormal : normalize txt out.2 = out.2 := by
        unfold normalize
        rw [hname.1, hname.2]
      exact Option.some.inj
        ((hexit'.self hscored hexact hempty hnormal hentry).symm.trans hlast)
    · -- a text that missed is normal already, and misses again
      have hmiss := (hexit.meets hempty).miss hhit
      rw [hmiss] at hexit' ⊢
      have hquery : query txt (normalize txt raw) = query txt raw := by
        unfold query
        rw [hnfc.normalize_normalize]
      have hagain' : ¬ IsHit again := by
        rw [hexit'.isHit_iff hempty]
        rw [hexit.isHit_iff hempty] at hhit
        unfold NearHit ScanHit scoreOf at hhit ⊢
        rw [hquery]
        exact hhit
      rw [(hexit'.meets hempty).miss hagain', hnfc.normalize_normalize]
  rw [matchKind_eq_matchTier, hagain, ← hsame]
  rfl

end Idempotent

namespace Sample

theorem exactHundred : ExactHundred exactScore := by
  intro a b
  unfold exactScore
  by_cases h : a = b <;> simp [h]

theorem nfcStable (score : Str → Str → Rat) : (scoring score).NfcStable :=
  ⟨fun _ => rfl, fun _ => rfl⟩

end Sample

theorem match_idempotent_exact :
    ∃ name, matchKind (Sample.scoring Sample.exactScore)
        (indexOf (Sample.scoring Sample.exactScore) ["AEON".toList, "Aeon".toList]) .store
          " aeon".toList = .ok name ∧
      matchKind (Sample.scoring Sample.exactScore)
        (indexOf (Sample.scoring Sample.exactScore) ["AEON".toList, "Aeon".toList]) .store name =
          .ok name :=
  match_idempotent Sample.scored_exact Sample.exactHundred (Sample.keepsEmpty _)
    (Sample.nfcStable _) (by
      intro name hname
      simp only [List.mem_cons, List.not_mem_nil, or_false] at hname
      rcases hname with rfl | rfl <;> decide +kernel) _ _

end InvoiceOcr
