/-
  File:      InvoiceOcr/Json/Schema.lean
  Subject:   JSON SCHEMAS of texts, arrays and objects, and their FILLING with defaults. Nothing here
             names a program.

  * `Schema.accepts`, `Schema.closed` -- a value satisfies a schema; it has no key beyond the listed;
  * `Schema.fill` -- strict validation: no further key, an absent key gets its default;
  * `Same` -- equality of values up to the order of keys, as `==` on dicts; `Filled` -- a value and
    what it becomes when its absent keys are filled;
  * **`fill_same`**, **`fill_accepts`**, **`filled_of_fill`** -- filling changes no complete value,
    gives a complete one, and adds absent keys only.
-/
import InvoiceOcr.Json.Dict
import Mathlib.Data.List.Forall2
import Mathlib.Data.Option.Basic

namespace PyJson

inductive Schema where
  | string
  | array (items : Schema)
  | object (required : List Str) (properties : List (Str × Schema))

/-! ## 1. Satisfaction and filling -/

mutual

/-- The value satisfies the schema; further keys are allowed. -/
def Schema.accepts : Schema → Json → Bool
  | .string, .str _ => true
  | .array s, .arr xs => xs.all s.accepts
  | .object required props, .obj d =>
    required.all (fun k => (Dict.get? d k).isSome) && acceptsProps props d
  | _, _ => false

def acceptsProps : List (Str × Schema) → Dict → Bool
  | [], _ => true
  | (k, s) :: props, d => (Dict.get? d k).all s.accepts && acceptsProps props d

end

mutual

/-- No object has a key beyond the listed. -/
def Schema.closed : Schema → Json → Bool
  | .array s, .arr xs => xs.all s.closed
  | .object _ props, .obj d =>
    (Dict.keys d).all (props.map Prod.fst).contains && closedProps props d
  | _, _ => true

def closedProps : List (Str × Schema) → Dict → Bool
  | [], _ => true
  | (k, s) :: props, d => (Dict.get? d k).all s.closed && closedProps props d

end

/-- What an absent key is filled with. There is no default for an object. -/
def Schema.default : Schema → Option Json
  | .string => some (.str [])
  | .array _ => some (.arr [])
  | .object _ _ => none

mutual

/-- Strict validation against the schema, absent keys filled. -/
def Schema.fill : Schema → Json → Option Json
  | .string, .str x => some (.str x)
  | .array s, .arr xs => (xs.mapM s.fill).map .arr
  | .object _ props, .obj d =>
    if (Dict.keys d).all (props.map Prod.fst).contains then (fillProps props d).map .obj else none
  | _, _ => none

def fillProps : List (Str × Schema) → Dict → Option Dict
  | [], _ => some []
  | (k, s) :: props, d =>
    ((Dict.get? d k).elim s.default s.fill).bind fun v =>
      (fillProps props d).bind fun e => some ((k, v) :: e)

end

mutual

/-- The required keys of every object are the listed ones, each listed once. -/
def Schema.complete : Schema → Bool
  | .string => true
  | .array s => s.complete
  | .object required props =>
    required = props.map Prod.fst && (props.map Prod.fst).Nodup && completeProps props

def completeProps : List (Str × Schema) → Bool
  | [] => true
  | (_, s) :: props => s.complete && completeProps props

end

/-- Equality of values, objects compared key by key. -/
inductive Same : Json → Json → Prop where
  | refl (v : Json) : Same v v
  | arr {xs ys : List Json} (h : List.Forall₂ Same xs ys) : Same (.arr xs) (.arr ys)
  | obj {d e : Dict} (h : ∀ k, Option.Rel Same (Dict.get? d k) (Dict.get? e k)) :
      Same (.obj d) (.obj e)

mutual

/-- The second value is the first with absent keys filled: a listed key keeps its value, itself
    filled, an absent one has its default, and no other key occurs in either. -/
def Filled : Schema → Json → Json → Prop
  | .string, .str x, .str y => x = y
  | .array s, .arr xs, .arr ys => List.Forall₂ (Filled s) xs ys
  | .object _ props, .obj d, .obj e =>
    FilledProps props d e ∧
      ∀ k, k ∉ props.map Prod.fst → Dict.get? d k = none ∧ Dict.get? e k = none
  | _, _, _ => False

def FilledProps : List (Str × Schema) → Dict → Dict → Prop
  | [], _, _ => True
  | (k, s) :: props, d, e =>
    (match Dict.get? d k with
      | none => Dict.get? e k = s.default
      | some v => ∃ w, Dict.get? e k = some w ∧ Filled s v w) ∧ FilledProps props d e

end

/-! ## 2. Items -/

theorem mapM_eq_some {α β : Type} {f : α → Option β} : ∀ {xs : List α} {ys : List β},
    xs.mapM f = some ys ↔ List.Forall₂ (fun x y => f x = some y) xs ys
  | [], ys => by simp [eq_comm]
  | x :: xs, ys => by
    rw [List.mapM_cons]
    constructor
    · intro h
      obtain ⟨y, hy, h⟩ := Option.bind_eq_some_iff.mp h
      obtain ⟨ys', hys, h⟩ := Option.bind_eq_some_iff.mp h
      cases h
      exact .cons hy (mapM_eq_some.mp hys)
    · rintro (_ | ⟨hy, hys⟩)
      rw [hy, mapM_eq_some.mpr hys]
      rfl

/-! ## 3. The rule of induction -/

mutual

/-- Induction on a schema: what holds of the schemas of all properties holds of the object. -/
theorem Schema.rule {P : Schema → Prop} (string : P .string) (array : ∀ s, P s → P (.array s))
    (object : ∀ required props, (∀ k s, (k, s) ∈ props → P s) → P (.object required props)) :
    ∀ s, P s
  | .string => string
  | .array s => array s (Schema.rule string array object s)
  | .object required props => object required props (Schema.rule_props string array object props)

theorem Schema.rule_props {P : Schema → Prop} (string : P .string)
    (array : ∀ s, P s → P (.array s))
    (object : ∀ required props, (∀ k s, (k, s) ∈ props → P s) → P (.object required props)) :
    ∀ (props : List (Str × Schema)) (k : Str) (s : Schema), (k, s) ∈ props → P s
  | (_, s) :: props, k', s', h => by
    rcases List.mem_cons.mp h with h | h
    · cases h
      exact Schema.rule string array object s
    · exact Schema.rule_props string array object props k' s' h

end

theorem forall_mem_props {P : Str → Schema → Prop} {k : Str} {s : Schema}
    {props : List (Str × Schema)} : (∀ k' s', (k', s') ∈ (k, s) :: props → P k' s') ↔
      P k s ∧ ∀ k' s', (k', s') ∈ props → P k' s' := by
  constructor
  · exact fun h => ⟨h k s List.mem_cons_self, fun k' s' hmem => h k' s' (List.mem_cons_of_mem _ hmem)⟩
  · rintro ⟨hhead, htail⟩ k' s' hmem
    rcases List.mem_cons.mp hmem with hmem | hmem
    · cases hmem
      exact hhead
    · exact htail k' s' hmem

theorem acceptsProps_iff {props : List (Str × Schema)} {d : Dict} : acceptsProps props d = true ↔
    ∀ k s, (k, s) ∈ props → (Dict.get? d k).all s.accepts = true := by
  induction props with
  | nil => simp [acceptsProps]
  | cons p props ih => rw [acceptsProps, Bool.and_eq_true, ih, forall_mem_props]

theorem closedProps_iff {props : List (Str × Schema)} {d : Dict} : closedProps props d = true ↔
    ∀ k s, (k, s) ∈ props → (Dict.get? d k).all s.closed = true := by
  induction props with
  | nil => simp [closedProps]
  | cons p props ih => rw [closedProps, Bool.and_eq_true, ih, forall_mem_props]

theorem completeProps_iff {props : List (Str × Schema)} : completeProps props = true ↔
    ∀ k s, (k, s) ∈ props → s.complete = true := by
  induction props with
  | nil => simp [completeProps]
  | cons p props ih => rw [completeProps, Bool.and_eq_true, ih, forall_mem_props]

theorem filledProps_iff {props : List (Str × Schema)} {d e : Dict} : FilledProps props d e ↔
    ∀ k s, (k, s) ∈ props → match Dict.get? d k with
      | none => Dict.get? e k = s.default
      | some v => ∃ w, Dict.get? e k = some w ∧ Filled s v w := by
  induction props with
  | nil => simp [FilledProps]
  | cons p props ih => rw [FilledProps, ih, forall_mem_props]

/-- A filled object has the listed keys, in their order. -/
theorem keys_fillProps : ∀ {props : List (Str × Schema)} {d e : Dict}, fillProps props d = some e →
    Dict.keys e = props.map Prod.fst
  | [], _, _, h => by
    cases h
    rfl
  | (k, s) :: props, d, e, h => by
    obtain ⟨v, -, h⟩ := Option.bind_eq_some_iff.mp h
    obtain ⟨e', he', h⟩ := Option.bind_eq_some_iff.mp h
    cases h
    have ih := keys_fillProps he'
    simp only [Dict.keys] at ih
    simp [Dict.keys, ih]

/-- A filled object has at a listed key what was there, filled, or the default. -/
theorem get?_fillProps {k : Str} {s : Schema} : ∀ {props : List (Str × Schema)} {d e : Dict},
    (props.map Prod.fst).Nodup → fillProps props d = some e → (k, s) ∈ props →
    ∃ v, Dict.get? e k = some v ∧ (Dict.get? d k).elim s.default s.fill = some v
  | (k', s') :: props, d, e, hnodup, h, hmem => by
    obtain ⟨v, hv, h⟩ := Option.bind_eq_some_iff.mp h
    obtain ⟨e', he', h⟩ := Option.bind_eq_some_iff.mp h
    cases h
    obtain ⟨hnew, hnodup⟩ := List.nodup_cons.mp hnodup
    rcases List.mem_cons.mp hmem with hmem | hmem
    · cases hmem
      exact ⟨v, get?_cons_self, hv⟩
    · have hne : k' ≠ k := by
        rintro rfl
        exact hnew (List.mem_map.mpr ⟨_, hmem, rfl⟩)
      rw [get?_cons_ne hne]
      exact get?_fillProps hnodup he' hmem

theorem fillProps_some {d : Dict} : ∀ {props : List (Str × Schema)},
    (∀ k s, (k, s) ∈ props → ∃ v, (Dict.get? d k).elim s.default s.fill = some v) →
    ∃ e, fillProps props d = some e
  | [], _ => ⟨_, rfl⟩
  | (k, s) :: props, h => by
    obtain ⟨⟨v, hv⟩, h⟩ := forall_mem_props.mp h
    obtain ⟨e, he⟩ := fillProps_some h
    refine ⟨(k, v) :: e, ?_⟩
    rw [fillProps, hv, Option.bind_some, he, Option.bind_some]

/-! ## 4. What filling does -/

/-- An object is filled only if it has no further key. -/
theorem fill_object {required : List Str} {props : List (Str × Schema)} {v w : Json}
    (h : (Schema.object required props).fill v = some w) : ∃ d e, v = .obj d ∧ w = .obj e ∧
      (∀ k ∈ Dict.keys d, k ∈ props.map Prod.fst) ∧ fillProps props d = some e := by
  cases v with
  | obj d =>
    rw [Schema.fill] at h
    split_ifs at h with hkeys
    obtain ⟨e, he, rfl⟩ := Option.map_eq_some_iff.mp h
    exact ⟨d, e, rfl, rfl, by simpa using hkeys, he⟩
  | _ => simp [Schema.fill] at h

/-- Items that are filled with nothing. -/
theorem fill_items {s : Schema} {xs : List Json} (h : ∀ x ∈ xs, ∃ y, s.fill x = some y ∧ Same y x) :
    ∃ w, (Schema.array s).fill (.arr xs) = some w ∧ Same w (.arr xs) := by
  have hys : ∃ ys, List.Forall₂ (fun x y => s.fill x = some y) xs ys ∧ List.Forall₂ Same ys xs := by
    induction xs with
    | nil => exact ⟨[], .nil, .nil⟩
    | cons x xs ih =>
      obtain ⟨⟨y, hy, hyx⟩, hxs⟩ := List.forall_mem_cons.mp h
      obtain ⟨ys, hfill, hsame⟩ := ih hxs
      exact ⟨y :: ys, .cons hy hfill, .cons hyx hsame⟩
  obtain ⟨ys, hfill, hsame⟩ := hys
  exact ⟨.arr ys, by rw [Schema.fill, mapM_eq_some.mpr hfill, Option.map_some], .arr hsame⟩

/-- Properties that are all there and filled with nothing. -/
theorem fill_props {required : List Str} {props : List (Str × Schema)} {d : Dict}
    (hnodup : (props.map Prod.fst).Nodup) (hkeys : ∀ k ∈ Dict.keys d, k ∈ props.map Prod.fst)
    (h : ∀ k s, (k, s) ∈ props → ∃ u w, Dict.get? d k = some u ∧ s.fill u = some w ∧ Same w u) :
    ∃ w, (Schema.object required props).fill (.obj d) = some w ∧ Same w (.obj d) := by
  obtain ⟨e, he⟩ := fillProps_some fun k s hmem => by
    obtain ⟨u, w, hu, hw, -⟩ := h k s hmem
    exact ⟨w, by rw [hu]; exact hw⟩
  refine ⟨.obj e, ?_, .obj fun k => ?_⟩
  · rw [Schema.fill, if_pos (List.all_eq_true.mpr fun k hk => List.contains_iff_mem.mpr (hkeys k hk)), he,
      Option.map_some]
  · by_cases hk : k ∈ props.map Prod.fst
    · obtain ⟨⟨_, s⟩, hmem, rfl⟩ := List.mem_map.mp hk
      obtain ⟨u, w, hu, hw, hwu⟩ := h _ s hmem
      obtain ⟨w', hget, hw'⟩ := get?_fillProps hnodup he hmem
      rw [hu, Option.elim_some, hw] at hw'
      cases hw'
      rw [hget, hu]
      exact .some hwu
    · have hd : Dict.get? d k = none := get?_eq_none.mpr fun hd => hk (hkeys k hd)
      have he : Dict.get? e k = none := get?_eq_none.mpr (keys_fillProps he ▸ hk)
      rw [hd, he]
      exact .none

/-- **A complete value is filled with nothing.** -/
theorem fill_same {s : Schema} (hs : s.complete = true) {v : Json} (haccepts : s.accepts v = true)
    (hclosed : s.closed v = true) : ∃ w, s.fill v = some w ∧ Same w v := by
  induction s using Schema.rule generalizing v with
  | string =>
    cases v with
    | str x => exact ⟨_, rfl, .refl _⟩
    | _ => simp [Schema.accepts] at haccepts
  | array s ih =>
    cases v with
    | arr xs =>
      simp only [Schema.complete, Schema.accepts, Schema.closed, List.all_eq_true] at hs haccepts hclosed
      exact fill_items fun x hx => ih hs (haccepts x hx) (hclosed x hx)
    | _ => simp [Schema.accepts] at haccepts
  | object required props ih =>
    cases v with
    | obj d =>
      simp only [Schema.complete, Schema.accepts, Schema.closed, Bool.and_eq_true, decide_eq_true_eq,
        List.all_eq_true, List.contains_iff_mem, completeProps_iff, acceptsProps_iff, closedProps_iff]
        at hs haccepts hclosed
      obtain ⟨⟨hrequired, hnodup⟩, hcomplete⟩ := hs
      obtain ⟨hpresent, haccepts⟩ := haccepts
      obtain ⟨hkeys, hclosed⟩ := hclosed
      refine fill_props hnodup hkeys fun k s hmem => ?_
      obtain ⟨u, hu⟩ := Option.isSome_iff_exists.mp
        (hpresent k (hrequired ▸ List.mem_map.mpr ⟨_, hmem, rfl⟩))
      have ha := haccepts k s hmem
      have hc := hclosed k s hmem
      rw [hu] at ha hc
      obtain ⟨w, hw, hwu⟩ := ih k s hmem (hcomplete k s hmem) ha hc
      exact ⟨u, w, hu, hw, hwu⟩
    | _ => simp [Schema.accepts] at haccepts

theorem default_accepts {s : Schema} {v : Json} (h : s.default = some v) : s.accepts v = true := by
  cases s with
  | object => cases h
  | _ =>
    cases h
    rfl

/-- **What is filled is complete.** -/
theorem fill_accepts {s : Schema} (hs : s.complete = true) {v w : Json} (h : s.fill v = some w) :
    s.accepts w = true := by
  induction s using Schema.rule generalizing v w with
  | string =>
    cases v with
    | str x =>
      cases h
      rfl
    | _ => simp [Schema.fill] at h
  | array s ih =>
    cases v with
    | arr xs =>
      obtain ⟨ys, hys, rfl⟩ := Option.map_eq_some_iff.mp h
      rw [Schema.accepts, List.all_eq_true]
      have hall := (mapM_eq_some.mp hys).flip.imp fun y x hxy => And.intro (ih hs hxy) hxy
      exact ((List.forall₂_and_left _ _).mp hall).1
    | _ => simp [Schema.fill] at h
  | object required props ih =>
    simp only [Schema.complete, Bool.and_eq_true, decide_eq_true_eq, completeProps_iff] at hs
    obtain ⟨⟨hrequired, hnodup⟩, hcomplete⟩ := hs
    obtain ⟨d, e, rfl, rfl, -, he⟩ := fill_object h
    simp only [Schema.accepts, Bool.and_eq_true, List.all_eq_true, acceptsProps_iff, get?_isSome,
      keys_fillProps he]
    refine ⟨fun k hk => hrequired ▸ hk, fun k s hmem => ?_⟩
    obtain ⟨w, hget, hw⟩ := get?_fillProps hnodup he hmem
    rw [hget, Option.all_some]
    cases hd : Dict.get? d k with
    | none => exact default_accepts (by rwa [hd] at hw)
    | some v => exact ih k s hmem (hcomplete k s hmem) (by rwa [hd] at hw)

/-- **Filling adds absent keys and nothing else.** -/
theorem filled_of_fill {s : Schema} (hs : s.complete = true) {v w : Json} (h : s.fill v = some w) :
    Filled s v w := by
  induction s using Schema.rule generalizing v w with
  | string =>
    cases v with
    | str x =>
      cases h
      rfl
    | _ => simp [Schema.fill] at h
  | array s ih =>
    cases v with
    | arr xs =>
      obtain ⟨ys, hys, rfl⟩ := Option.map_eq_some_iff.mp h
      exact (mapM_eq_some.mp hys).imp fun x y hxy => ih hs hxy
    | _ => simp [Schema.fill] at h
  | object required props ih =>
    simp only [Schema.complete, Bool.and_eq_true, decide_eq_true_eq, completeProps_iff] at hs
    obtain ⟨d, e, rfl, rfl, hkeys, he⟩ := fill_object h
    refine ⟨filledProps_iff.mpr fun k s hmem => ?_, fun k hk => ⟨?_, ?_⟩⟩
    · obtain ⟨w, hget, hw⟩ := get?_fillProps hs.1.2 he hmem
      cases hd : Dict.get? d k with
      | none =>
        rw [hd] at hw
        exact hget.trans hw.symm
      | some v =>
        rw [hd] at hw
        exact ⟨w, hget, ih k s hmem (hs.2 k s hmem) hw⟩
    · exact get?_eq_none.mpr fun h => hk (hkeys k h)
    · exact get?_eq_none.mpr (keys_fillProps he ▸ hk)

end PyJson
