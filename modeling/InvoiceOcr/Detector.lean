/-
  File:      InvoiceOcr/Detector.lean
  Subject:   THE GEOMETRY OF THE DETECTOR (src/pipeline/detector.py): the letterbox an image goes
             into, and the crop a prediction comes out as, in exact arithmetic.

  * `pyRound_…` -- `round` moves a number by at most a half, and a distance above one keeps two
    numbers apart;
  * `Letterbox.Fits` -- both sides of the resized image are there, and it lies on the canvas;
  * **`letterboxOf_fits_iff`** -- so it is exactly while the long side is less than 1280 times the
    short one;
  * **`letterbox_thin_image`** -- an image of one pixel by 1600 is resized to no height at all;
  * **`letterbox_there_and_back`** -- onto the canvas and back a point moves by half a pixel of the
    network at most;
  * **`cropBest_contains`** -- a crop holds what of the detected box lies in the image, and a box is
    called degenerate only when less than a pixel of it does.
-/
import InvoiceOcr.Replay
import Mathlib.Algebra.Order.Floor.Ring
import Mathlib.Data.Rat.Floor
import Mathlib.Tactic.Linarith
import Mathlib.Tactic.FieldSimp

namespace InvoiceOcr

open PyJson Async

/-! ## 1. Rounding -/

variable {x y : Rat} {n : Int}

theorem pyRound_cases (x : Rat) :
    (x - ⌊x⌋ < 1 / 2 ∧ pyRound x = ⌊x⌋) ∨ (1 / 2 < x - ⌊x⌋ ∧ pyRound x = ⌊x⌋ + 1) ∨
      (x - ⌊x⌋ = 1 / 2 ∧ pyRound x = if ⌊x⌋ % 2 = 0 then ⌊x⌋ else ⌊x⌋ + 1) := by
  have hfloor : x.floor = ⌊x⌋ := rfl
  unfold pyRound
  rw [hfloor]
  by_cases hlow : x - ⌊x⌋ < 1 / 2
  · exact Or.inl ⟨hlow, if_pos hlow⟩
  · by_cases hhigh : 1 / 2 < x - ⌊x⌋
    · exact Or.inr (Or.inl ⟨hhigh, by simp only [hlow, hhigh, if_true, if_false]⟩)
    · have htie : x - ⌊x⌋ = 1 / 2 := le_antisymm (not_lt.mp hhigh) (not_lt.mp hlow)
      exact Or.inr (Or.inr ⟨htie, by simp only [hlow, hhigh, if_false]⟩)

theorem le_pyRound (x : Rat) : x - 1 / 2 ≤ pyRound x := by
  have hlt := Int.lt_floor_add_one x
  rcases pyRound_cases x with ⟨h, heq⟩ | ⟨h, heq⟩ | ⟨h, heq⟩
  · rw [heq]
    linarith
  · rw [heq]
    push_cast
    linarith
  · rw [heq]
    split <;> push_cast <;> linarith

theorem pyRound_le (x : Rat) : (pyRound x : Rat) ≤ x + 1 / 2 := by
  have hle := Int.floor_le x
  rcases pyRound_cases x with ⟨h, heq⟩ | ⟨h, heq⟩ | ⟨h, heq⟩
  · rw [heq]
    linarith
  · rw [heq]
    push_cast
    linarith
  · rw [heq]
    split <;> push_cast <;> linarith

/-- Numbers more than one apart stay apart. -/
theorem pyRound_lt_pyRound (h : x + 1 < y) : pyRound x < pyRound y := by
  have hx := pyRound_le x
  have hy := le_pyRound y
  have hlt : (pyRound x : Rat) < pyRound y := by linarith
  exact_mod_cast hlt

theorem pyRound_le_of_le (h : x ≤ n) : pyRound x ≤ n := by
  have hx := pyRound_le x
  have hlt : (pyRound x : Rat) < (n + 1 : Int) := by
    push_cast
    linarith
  have hlt' : pyRound x < n + 1 := by exact_mod_cast hlt
  omega

/-- A half is rounded down to zero. -/
theorem one_le_pyRound_iff (hx : 0 ≤ x) : 1 ≤ pyRound x ↔ 1 / 2 < x := by
  constructor
  · intro h
    by_contra hsmall
    have hfloor : ⌊x⌋ = 0 := Int.floor_eq_iff.mpr ⟨by simpa using hx, by push_cast; linarith⟩
    rcases pyRound_cases x with ⟨_, heq⟩ | ⟨hhigh, _⟩ | ⟨_, heq⟩
    · omega
    · rw [hfloor] at hhigh
      push_cast at hhigh
      linarith
    · simp only [hfloor] at heq
      simp at heq
      omega
  · intro h
    have hround := le_pyRound x
    have hpos : (0 : Rat) < pyRound x := by linarith
    have hpos' : 0 < pyRound x := by exact_mod_cast hpos
    omega

/-! ## 2. The letterbox -/

/-- The resized image has both its sides, and lies on the canvas where it is pasted. -/
structure Letterbox.Fits (lb : Letterbox) : Prop where
  width : 1 ≤ lb.newW ∧ lb.newW ≤ imgSize
  height : 1 ≤ lb.newH ∧ lb.newH ≤ imgSize
  pad : 0 ≤ lb.padX ∧ 0 ≤ lb.padY
  inside : lb.padX + lb.newW ≤ imgSize ∧ lb.padY + lb.newH ≤ imgSize

/-- A side of the letterboxed image, before it is rounded. -/
theorem letterbox_side {side other : Nat} (hside : 1 ≤ side) :
    (side : Rat) * min ((imgSize : Rat) / side) ((imgSize : Rat) / other) =
      min (imgSize : Rat) (imgSize * side / other) := by
  have hpos : (0 : Rat) < side := by exact_mod_cast hside
  rw [mul_min_of_nonneg _ _ hpos.le, mul_div_cancel₀ _ hpos.ne', mul_comm (imgSize : Rat) side,
    mul_div_assoc]

/-- A side is at most 640, and is there exactly while the other is less than 1280 times as long. -/
theorem letterbox_side_round {side other : Nat} (hside : 1 ≤ side) (hother : 1 ≤ other) :
    pyRound (side * min ((imgSize : Rat) / side) ((imgSize : Rat) / other)) ≤ imgSize ∧
    (1 ≤ pyRound (side * min ((imgSize : Rat) / side) ((imgSize : Rat) / other)) ↔
      other < 1280 * side) := by
  have hpos : (0 : Rat) < other := by exact_mod_cast hother
  rw [letterbox_side hside]
  refine ⟨pyRound_le_of_le (by push_cast; exact min_le_left _ _), ?_⟩
  rw [one_le_pyRound_iff (by positivity), lt_min_iff, lt_div_iff₀ hpos]
  constructor
  · intro ⟨_, hlt⟩
    have hlt' : (other : Rat) < 1280 * side := by
      unfold imgSize at hlt
      push_cast at hlt
      linarith
    exact_mod_cast hlt'
  · intro hlt
    have hlt' : (other : Rat) < 1280 * side := by exact_mod_cast hlt
    unfold imgSize
    push_cast
    exact ⟨by norm_num, by linarith⟩

/-- **When letterboxing is defined**: exactly while the long side of the image is less than 1280
    times the short one. -/
theorem letterboxOf_fits_iff {w h : Nat} (hw : 1 ≤ w) (hh : 1 ≤ h) :
    (letterboxOf w h).Fits ↔ max w h < 1280 * min w h := by
  obtain ⟨hwidth, hwidth'⟩ := letterbox_side_round hw hh
  obtain ⟨hheight, hheight'⟩ := letterbox_side_round hh hw
  rw [min_comm] at hheight hheight'
  have hsides : (1 ≤ (letterboxOf w h).newW ∧ 1 ≤ (letterboxOf w h).newH) ↔
      max w h < 1280 * min w h := by
    rw [show (letterboxOf w h).newW = pyRound _ from rfl,
      show (letterboxOf w h).newH = pyRound _ from rfl, hwidth', hheight']
    omega
  rw [← hsides]
  constructor
  · intro hfits
    exact ⟨hfits.width.1, hfits.height.1⟩
  · intro ⟨hw1, hh1⟩
    have hpadX : (letterboxOf w h).padX = ((imgSize : Int) - (letterboxOf w h).newW) / 2 := rfl
    have hpadY : (letterboxOf w h).padY = ((imgSize : Int) - (letterboxOf w h).newH) / 2 := rfl
    have hwidth : (letterboxOf w h).newW ≤ imgSize := hwidth
    have hheight : (letterboxOf w h).newH ≤ imgSize := hheight
    exact ⟨⟨hw1, hwidth⟩, ⟨hh1, hheight⟩, ⟨by omega, by omega⟩, ⟨by omega, by omega⟩⟩

/-- The widest image two pixels high that `preprocess_image` lets through by default. -/
theorem letterboxOf_fits_ticket : (letterboxOf 1600 2).Fits ↔ max 1600 2 < 1280 * min 1600 2 :=
  letterboxOf_fits_iff (by decide) (by decide)

/-- **A thin image has no letterbox**: 1600 pixels by one are scaled to no height at all. -/
theorem letterbox_thin_image :
    ¬ ∀ (cfg : Settings) (w h : Nat), 1 ≤ w → 1 ≤ h → max w h ≤ cfg.maxImageDimension →
      (letterboxOf w h).Fits := by
  intro hall
  have hfits := hall {} 1600 1 (by decide) (by decide) (by decide)
  exact absurd hfits.height.1 (by decide +kernel)

/-! ## 3. There and back -/

/-- Where `resize` and `paste` put a point of an image of `w` by `h`. -/
def Letterbox.forward (lb : Letterbox) (w h : Nat) (x y : Rat) : Rat × Rat :=
  (x * lb.newW / w + lb.padX, y * lb.newH / h + lb.padY)

/-- The point of the image that `detect_invoice` makes of a point of the canvas. -/
def Letterbox.back (lb : Letterbox) (x y : Rat) : Rat × Rat :=
  ((x - lb.padX) / lb.scale, (y - lb.padY) / lb.scale)

/-- A point of the image, taken onto the canvas and back. -/
def thereAndBack (w h : Nat) (x y : Rat) : Rat × Rat :=
  let canvas := (letterboxOf w h).forward w h x y
  (letterboxOf w h).back canvas.1 canvas.2

/-- A detected box is taken back corner by corner. -/
theorem reverse_corners (lb : Letterbox) (cx cy bw bh : Rat) :
    lb.reverse cx cy bw bh =
      ⟨(lb.back (cx - bw / 2) (cy - bh / 2)).1, (lb.back (cx - bw / 2) (cy - bh / 2)).2,
        (lb.back (cx + bw / 2) (cy + bh / 2)).1, (lb.back (cx + bw / 2) (cy + bh / 2)).2⟩ := rfl

/-- Of two points of the canvas the one further right, and further down, stays so. -/
theorem back_lt_back {lb : Letterbox} {x x' y y' : Rat} (hscale : 0 < lb.scale) (hx : x < x')
    (hy : y < y') :
    (lb.back x y).1 < (lb.back x' y').1 ∧ (lb.back x y).2 < (lb.back x' y').2 :=
  ⟨div_lt_div_of_pos_right (sub_lt_sub_right hx _) hscale,
    div_lt_div_of_pos_right (sub_lt_sub_right hy _) hscale⟩

theorem abs_pyRound_sub_le (x : Rat) : |(pyRound x : Rat) - x| ≤ 1 / 2 := by
  have hlow := le_pyRound x
  have hhigh := pyRound_le x
  rw [abs_le]
  constructor <;> linarith

/-- One coordinate, scaled by the rounded side and back by the common scale. -/
theorem there_and_back_side {side : Nat} {scale p : Rat} {pad : Int} (hside : 1 ≤ side)
    (hscale : 0 < scale) (h0 : 0 ≤ p) (hp : p ≤ side) :
    |(p * pyRound (side * scale) / side + pad - pad) / scale - p| ≤ 1 / (2 * scale) := by
  have hpos : (0 : Rat) < side := by exact_mod_cast hside
  have herror : (p * pyRound (side * scale) / side + pad - pad) / scale - p =
      p / side * ((pyRound (side * scale) - side * scale) / scale) := by
    rw [add_sub_cancel_right]
    field_simp
  have hshare : 0 ≤ p / side ∧ p / side ≤ 1 := ⟨div_nonneg h0 hpos.le, (div_le_one hpos).mpr hp⟩
  have hround : |(pyRound (side * scale) - side * scale) / scale| ≤ 1 / (2 * scale) := by
    rw [abs_div, abs_of_pos hscale, div_le_div_iff₀ hscale (by positivity)]
    have hhalf := abs_pyRound_sub_le (side * scale)
    nlinarith only [hhalf, hscale]
  rw [herror, abs_mul, abs_of_nonneg hshare.1]
  calc p / side * |(pyRound (side * scale) - side * scale) / scale|
      ≤ 1 * |(pyRound (side * scale) - side * scale) / scale| :=
        mul_le_mul_of_nonneg_right hshare.2 (abs_nonneg _)
    _ ≤ 1 / (2 * scale) := by rw [one_mul]; exact hround

/-- **The reverse letterbox is exact up to half a network pixel**: a point of the image comes back
    within `1 / (2 * scale)` of itself, whichever way the two sides were rounded. -/
theorem letterbox_there_and_back {w h : Nat} {x y : Rat} (hw : 1 ≤ w) (hh : 1 ≤ h) (hx : 0 ≤ x)
    (hxw : x ≤ w) (hy : 0 ≤ y) (hyh : y ≤ h) :
    |(thereAndBack w h x y).1 - x| ≤ 1 / (2 * (letterboxOf w h).scale) ∧
      |(thereAndBack w h x y).2 - y| ≤ 1 / (2 * (letterboxOf w h).scale) := by
  have hscale : 0 < (letterboxOf w h).scale := by
    have hw' : (0 : Rat) < w := by exact_mod_cast hw
    have hh' : (0 : Rat) < h := by exact_mod_cast hh
    refine lt_min ?_ ?_
    · exact div_pos (by norm_num [imgSize]) hw'
    · exact div_pos (by norm_num [imgSize]) hh'
  exact ⟨there_and_back_side hw hscale hx hxw, there_and_back_side hh hscale hy hyh⟩

/-- The middle of the right edge of a photo of 1000 by 1333 pixels. -/
theorem letterbox_there_and_back_edge :
    |(thereAndBack 1000 1333 1000 (1333 / 2)).1 - 1000| ≤ 1 / (2 * (letterboxOf 1000 1333).scale) ∧
      |(thereAndBack 1000 1333 1000 (1333 / 2)).2 - 1333 / 2| ≤
        1 / (2 * (letterboxOf 1000 1333).scale) :=
  letterbox_there_and_back (by decide) (by decide) (by norm_num) (by norm_num) (by norm_num)
    (by norm_num)

/-! ## 4. The crop -/

variable (cfg : Settings) (lib : Externals)

/-- `[a, b]` after padding, rounding and clamping to `size` pixels, one axis of `cropRect`. -/
def cropSide (pad : Rat) (size : Nat) (a b : Rat) : Int × Int :=
  (max 0 (pyRound (a - (b - a) * pad)), min (size : Int) (pyRound (b + (b - a) * pad)))

variable {cfg} {pad a b p : Rat} {size : Nat}

/-- **A point of the side that lies in the image** is within half a pixel of what is cropped. -/
theorem cropSide_contains (hpad : 0 < pad) (hab : a < b) (hap : a ≤ p) (hpb : p ≤ b) (h0 : 0 ≤ p)
    (hp : p ≤ size) :
    ((cropSide pad size a b).1 : Rat) - 1 / 2 ≤ p ∧ p ≤ (cropSide pad size a b).2 + 1 / 2 := by
  have hgrow : 0 < (b - a) * pad := mul_pos (by linarith) hpad
  have hlow := pyRound_le (a - (b - a) * pad)
  have hhigh := le_pyRound (b + (b - a) * pad)
  unfold cropSide
  constructor
  · rw [Int.cast_max, sub_le_iff_le_add, max_le_iff]
    exact ⟨by push_cast; linarith, by linarith⟩
  · rw [Int.cast_min, ← sub_le_iff_le_add, le_min_iff]
    exact ⟨by push_cast; linarith, by linarith⟩

/-- **A side of the box with a pixel of it in the image** is not cropped to nothing. -/
theorem cropSide_lt (hpad : 0 < pad) (hab : a < b) (hsize : 1 ≤ size)
    (hwide : 1 ≤ min b size - max a 0) :
    (cropSide pad size a b).1 < (cropSide pad size a b).2 := by
  have hgrow : 0 < (b - a) * pad := mul_pos (by linarith) hpad
  have hb : min b size ≤ b := min_le_left _ _
  have hs : min b size ≤ size := min_le_right _ _
  have ha : a ≤ max a 0 := le_max_left _ _
  have h0 : 0 ≤ max a 0 := le_max_right _ _
  have hlow := pyRound_le (a - (b - a) * pad)
  have hhigh := le_pyRound (b + (b - a) * pad)
  have hends : (0 : Rat) < pyRound (b + (b - a) * pad) := by linarith
  have hstarts : (pyRound (a - (b - a) * pad) : Rat) < size := by linarith
  have happart : pyRound (a - (b - a) * pad) < pyRound (b + (b - a) * pad) :=
    pyRound_lt_pyRound (by linarith)
  have hends' : 0 < pyRound (b + (b - a) * pad) := by exact_mod_cast hends
  have hstarts' : pyRound (a - (b - a) * pad) < (size : Int) := by exact_mod_cast hstarts
  unfold cropSide
  simp only [max_lt_iff, lt_min_iff]
  omega

/-- The prediction `detect_invoice` goes on with: the best column of a `(b, 5, n)` output, at or
    above the threshold. -/
def Tensor.Accepts (cfg : Settings) (out : Tensor) (cx cy bw bh : Rat) : Prop :=
  ∃ batch n best conf, out.shape = [batch, 5, n] ∧ batch ≠ 0 ∧
    argmax (out.pred n 4) = some (best, conf) ∧ cfg.yoloConfidenceThreshold ≤ conf ∧
    cx = (out.pred n 0).getD best 0 ∧ cy = (out.pred n 1).getD best 0 ∧
    bw = (out.pred n 2).getD best 0 ∧ bh = (out.pred n 3).getD best 0

/-- What an accepted prediction leads to. -/
theorem cropBest_accepts (img : Image) (lb : Letterbox) {out : Tensor} {cx cy bw bh : Rat}
    (haccepts : out.Accepts cfg cx cy bw bh) :
    let B := lb.reverse cx cy bw bh
    let xs := cropSide cfg.yoloCropPadPercent img.width B.x1 B.x2
    let ys := cropSide cfg.yoloCropPadPercent img.height B.y1 B.y2
    if xs.2 ≤ xs.1 ∨ ys.2 ≤ ys.1 then
      ∃ message, cropBest cfg lib img lb out =
        .error (.permanentPipeline "yolo_degenerate_box".toList message)
    else cropBest cfg lib img lb out = lib.crop img xs.1 ys.1 xs.2 ys.2 := by
  obtain ⟨batch, n, best, conf, hshape, hbatch, hbest, hconf, rfl, rfl, rfl, rfl⟩ := haccepts
  unfold cropBest
  rw [hshape]
  simp only [hbatch, if_false, hbest, not_lt.mpr hconf]
  split
  next hdegenerate => exact ⟨_, if_pos hdegenerate⟩
  next hdegenerate => exact if_neg hdegenerate

/-- The box before padding, in image coordinates, has both its sides. -/
theorem reverse_sides {lb : Letterbox} (cx cy : Rat) {bw bh : Rat} (hscale : 0 < lb.scale) (hbw : 0 < bw)
    (hbh : 0 < bh) : (lb.reverse cx cy bw bh).x1 < (lb.reverse cx cy bw bh).x2 ∧
      (lb.reverse cx cy bw bh).y1 < (lb.reverse cx cy bw bh).y2 := by
  rw [reverse_corners]
  exact back_lt_back hscale (by linarith) (by linarith)

/-- **The crop holds the detected receipt**: what is cropped lies in the image, and every point of
    the box in the image is within half a pixel of it; only a box with less than a pixel of a side
    in the image is called degenerate. -/
theorem cropBest_contains {img : Image} {lb : Letterbox} {out : Tensor} {cx cy bw bh : Rat}
    (hw : 1 ≤ img.width) (hh : 1 ≤ img.height) (hscale : 0 < lb.scale)
    (hpad : 0 < cfg.yoloCropPadPercent) (haccepts : out.Accepts cfg cx cy bw bh) (hbw : 0 < bw)
    (hbh : 0 < bh) :
    let B := lb.reverse cx cy bw bh
    (∃ x1 y1 x2 y2 : Int, cropBest cfg lib img lb out = lib.crop img x1 y1 x2 y2 ∧
      (0 ≤ x1 ∧ x1 < x2 ∧ x2 ≤ img.width) ∧ (0 ≤ y1 ∧ y1 < y2 ∧ y2 ≤ img.height) ∧
      ∀ px py : Rat, B.x1 ≤ px → px ≤ B.x2 → B.y1 ≤ py → py ≤ B.y2 → 0 ≤ px → px ≤ img.width →
        0 ≤ py → py ≤ img.height →
        (x1 - 1 / 2 ≤ px ∧ px ≤ x2 + 1 / 2) ∧ (y1 - 1 / 2 ≤ py ∧ py ≤ y2 + 1 / 2)) ∨
    ((∃ message, cropBest cfg lib img lb out =
        .error (.permanentPipeline "yolo_degenerate_box".toList message)) ∧
      (min B.x2 img.width - max B.x1 0 < 1 ∨ min B.y2 img.height - max B.y1 0 < 1)) := by
  intro B
  obtain ⟨hx, hy⟩ := reverse_sides cx cy hscale hbw hbh
  have hcrop := cropBest_accepts lib img lb haccepts
  dsimp only at hcrop
  split at hcrop
  next hdegenerate =>
    refine Or.inr ⟨hcrop, ?_⟩
    rcases hdegenerate with hxs | hys
    · exact Or.inl (lt_of_not_ge fun hwide => absurd (cropSide_lt hpad hx hw hwide) (by omega))
    · exact Or.inr (lt_of_not_ge fun hwide => absurd (cropSide_lt hpad hy hh hwide) (by omega))
  next hdegenerate =>
    push Not at hdegenerate
    refine Or.inl ⟨_, _, _, _, hcrop, ⟨le_max_left _ _, hdegenerate.1, min_le_left _ _⟩,
      ⟨le_max_left _ _, hdegenerate.2, min_le_left _ _⟩, ?_⟩
    intro px py hx1 hx2 hy1 hy2 hpx hpx' hpy hpy'
    exact ⟨cropSide_contains hpad hx hx1 hx2 hpx hpx', cropSide_contains hpad hy hy1 hy2 hpy hpy'⟩

namespace Sample

/-- A white image of 1000 by 1000 pixels, and a library that cuts to size. -/
def square : Image := ⟨"RGB".toList, 1000, 1000, []⟩

def cuttingLib : Externals :=
  { Sample.lib with
    crop := fun img x1 y1 x2 y2 =>
      .ok { img with width := (x2 - x1).toNat, height := (y2 - y1).toNat } }

/-- One box of 200 by 200 in the middle of the canvas. -/
def detected : Tensor := ⟨[1, 5, 1], [320, 320, 200, 200, 19 / 20], rfl⟩

theorem detected_accepts : detected.Accepts {} 320 320 200 200 := by
  refine ⟨1, 1, 0, 19 / 20, rfl, by decide, rfl, ?_, rfl, rfl, rfl, rfl⟩
  norm_num

end Sample

theorem cropBest_contains_square :
    let B := (letterboxOf 1000 1000).reverse 320 320 200 200
    (∃ x1 y1 x2 y2 : Int, cropBest {} Sample.cuttingLib Sample.square (letterboxOf 1000 1000)
        Sample.detected = Sample.cuttingLib.crop Sample.square x1 y1 x2 y2 ∧
      (0 ≤ x1 ∧ x1 < x2 ∧ x2 ≤ Sample.square.width) ∧
      (0 ≤ y1 ∧ y1 < y2 ∧ y2 ≤ Sample.square.height) ∧
      ∀ px py : Rat, B.x1 ≤ px → px ≤ B.x2 → B.y1 ≤ py → py ≤ B.y2 → 0 ≤ px →
        px ≤ Sample.square.width → 0 ≤ py → py ≤ Sample.square.height →
        (x1 - 1 / 2 ≤ px ∧ px ≤ x2 + 1 / 2) ∧ (y1 - 1 / 2 ≤ py ∧ py ≤ y2 + 1 / 2)) ∨
    ((∃ message, cropBest {} Sample.cuttingLib Sample.square (letterboxOf 1000 1000)
        Sample.detected = .error (.permanentPipeline "yolo_degenerate_box".toList message)) ∧
      (min B.x2 Sample.square.width - max B.x1 0 < 1 ∨
        min B.y2 Sample.square.height - max B.y1 0 < 1)) :=
  cropBest_contains Sample.cuttingLib (by decide) (by decide) (by decide +kernel)
    (by decide +kernel) Sample.detected_accepts (by norm_num) (by norm_num)

end InvoiceOcr
