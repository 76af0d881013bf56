import CollideOScope.Support.Elimination
import Mathlib.Analysis.Convex.Hull
import Mathlib.LinearAlgebra.CrossProduct
import Mathlib.Tactic.Linarith

/-!
# Stage geometry over the rationals

`validate_geometry`, `plan_geometry` and `solve_homography` of `stage_map.rs`
with `projective_uv` of the stage shader.  An accepted quad is mapped onto its
source rectangle; the solver, which fixes the last coefficient to one, refuses
the quads whose horizon passes through the coordinate origin.
-/

namespace CollideOScope.Stage

open List Elimination Fin Function

abbrev Point := ℚ × ℚ

structure NormalizedRect where
  (x y width height : ℚ)

structure NormalizedQuad where
  points : Fin 4 → Point

inductive StageGeometry where
  | perspectiveQuad (source : NormalizedRect) (output : NormalizedQuad)
  | polygon (source output : List Point)

/-- The errors that `validate_geometry` reports. -/
inductive StageMapError where
  | invalidSourceRegion | invalidOutputRegion | invalidPolygonMapping
  deriving DecidableEq

def NormalizedRect.validate (rect : NormalizedRect) : Except StageMapError Unit :=
  if rect.x < 0 ∨ rect.y < 0 ∨ rect.width ≤ 0 ∨ rect.height ≤ 0 ∨
      1 < rect.x + rect.width ∨ 1 < rect.y + rect.height then
    .error .invalidSourceRegion
  else .ok ()

def NormalizedRect.corners (rect : NormalizedRect) : Fin 4 → Point :=
  ![(rect.x, rect.y), (rect.x + rect.width, rect.y), (rect.x + rect.width, rect.y + rect.height),
    (rect.x, rect.y + rect.height)]

/-- The cross product of the two edges that meet in the middle point. -/
def cross (a b c : Point) : ℚ := (b.1 - a.1) * (c.2 - b.2) - (b.2 - a.2) * (c.1 - b.1)

def maxPolygonVertices : ℕ := 8

def turnAt (points : List Point) (index : ℕ) : ℚ :=
  let point i := points.getD (i % points.length) (0, 0)
  cross (point index) (point (index + 1)) (point (index + 2))

/-- The loop of `validate_convex_polygon`; the sign is zero at its start. -/
def keepsTurning (points : List Point) : List ℕ → ℤ → Bool
  | [], _ => true
  | index :: rest, sign =>
    if |turnAt points index| ≤ 1 / 10 ^ 6 then false
    else
      let current : ℤ := if 0 < turnAt points index then 1 else -1
      (sign = 0 || sign = current) && keepsTurning points rest current

def validateConvexPolygon (points : List Point) : Bool :=
  3 ≤ points.length && points.length ≤ maxPolygonVertices &&
    points.all (fun p => 0 ≤ p.1 ∧ p.1 ≤ 1 ∧ 0 ≤ p.2 ∧ p.2 ≤ 1) &&
    keepsTurning points (range points.length) 0

def NormalizedQuad.validate (quad : NormalizedQuad) : Except StageMapError Unit :=
  if validateConvexPolygon (ofFn quad.points) then .ok ()
  else .error .invalidOutputRegion

def polygonWinding (points : List Point) : ℤ :=
  let area := (points.zipWith (fun point next =>
    point.1 * next.2 - next.1 * point.2) (points.rotate 1)).sum
  if points.length < 3 ∨ |area| ≤ 1 / 10 ^ 6 then 0
  else if 0 < area then 1 else -1

/-- The two equations of a corner and its destination. -/
def uRow (p q : Point) : Fin 9 → ℚ := ![p.1, p.2, 1, 0, 0, 0, -q.1 * p.1, -q.1 * p.2, q.1]

def vRow (p q : Point) : Fin 9 → ℚ := ![0, 0, 0, p.1, p.2, 1, -q.2 * p.1, -q.2 * p.2, q.2]

def homographySystem (p q : Fin 4 → Point) : System 8 ℚ :=
  ![uRow (p 0) (q 0), vRow (p 0) (q 0), uRow (p 1) (q 1), vRow (p 1) (q 1),
    uRow (p 2) (q 2), vRow (p 2) (q 2), uRow (p 3) (q 3), vRow (p 3) (q 3)]

/-- The projective map of four points to four points.  The code's threshold for
a pivot is `1.0e-10`. -/
def solveHomography (threshold : ℚ) (source destination : Fin 4 → Point) : Option (Fin 9 → ℚ) :=
  (solve threshold (homographySystem source destination)).map fun x =>
    lastCases (motive := fun _ => ℚ) 1 x

structure StageMeshVertex where
  (sourceUv outputUv : Point)

structure PlannedGeometry where
  vertices : List StageMeshVertex
  indices : List ℕ
  outputToSource : Option (Fin 9 → ℚ)

def planGeometry (threshold : ℚ) : StageGeometry → Option PlannedGeometry
  | .perspectiveQuad source output =>
    (solveHomography threshold output.points source.corners).map fun map =>
      { vertices := (ofFn source.corners).zipWith StageMeshVertex.mk
          (ofFn output.points)
        indices := [0, 1, 2, 0, 2, 3]
        outputToSource := some map }
  | .polygon source output =>
    if source.length ≠ output.length ∨ source.length < 3 then none
    else some
      { vertices := source.zipWith StageMeshVertex.mk output
        indices := (range (source.length - 2)).flatMap fun index => [0, index + 1, index + 2]
        outputToSource := none }

def validateGeometry (threshold : ℚ) : StageGeometry → Except StageMapError Unit
  | .perspectiveQuad source output => do
      source.validate
      output.validate
      if (solveHomography threshold output.points source.corners).isNone then
        throw .invalidOutputRegion
  | .polygon source output =>
    if source.length ≠ output.length ∨ source.length < 3 ∨
        maxPolygonVertices < source.length ∨ polygonWinding source = 0 ∨
        polygonWinding output = 0 ∨
        polygonWinding source ≠ polygonWinding output ∨
        !validateConvexPolygon source ∨ !validateConvexPolygon output then
      .error .invalidPolygonMapping
    else .ok ()

def affine (a b c : ℚ) (p : Point) : ℚ := a * p.1 + b * p.2 + c

/-- The denominator of `projective_uv`. -/
def denominator (map : Fin 9 → ℚ) (outputUv : Point) : ℚ := affine (map 6) (map 7) (map 8) outputUv

def projectiveUv (map : Fin 9 → ℚ) (outputUv : Point) : Point :=
  (affine (map 0) (map 1) (map 2) outputUv / denominator map outputUv,
    affine (map 3) (map 4) (map 5) outputUv / denominator map outputUv)

def Maps (map : Fin 9 → ℚ) (p q : Fin 4 → Point) : Prop :=
  ∀ i, affine (map 0) (map 1) (map 2) (p i) = (q i).1 * denominator map (p i) ∧
    affine (map 3) (map 4) (map 5) (p i) = (q i).2 * denominator map (p i)

/-- The line through the points where opposite sides meet, in homogeneous
coordinates. -/
def horizon (p : Fin 4 → Point) : Fin 3 → ℚ :=
  let point i : Fin 3 → ℚ := ![(p i).1, (p i).2, 1]
  let side i j := crossProduct (point i) (point j)
  crossProduct (crossProduct (side 0 1) (side 2 3)) (crossProduct (side 1 2) (side 3 0))

/-- A line passes through the origin if its last coordinate is zero. -/
def HorizonMeetsOrigin (quad : NormalizedQuad) : Prop := horizon quad.points (Fin.last 2) = 0

def others (p : Fin 4 → Point) (i : Fin 4) : ℚ := cross (p (i + 1)) (p (i + 2)) (p (i + 3))

theorem keepsTurning_sound {points : List Point} :
    ∀ {indices : List ℕ} {sign : ℤ},
      keepsTurning points indices sign = true →
      (∀ i ∈ indices, 0 < turnAt points i ∧ (sign = 0 ∨ sign = 1)) ∨
        ∀ i ∈ indices, turnAt points i < 0 ∧ (sign = 0 ∨ sign = -1)
  | [], _, _ => .inl fun _ h => nomatch h
  | index :: rest, sign, h => by
      rw [keepsTurning] at h
      split_ifs at h with hflat hpos <;>
        simp only [Bool.and_eq_true, Bool.or_eq_true, decide_eq_true_eq] at h
      · have ih := keepsTurning_sound h.2
        refine .inl (forall_mem_cons.mpr ⟨⟨hpos, h.1⟩, fun i hi => ?_⟩)
        obtain hpos | hneg := ih
        · exact ⟨(hpos i hi).1, h.1⟩
        · exact absurd (hneg i hi).2 (by decide)
      · have ih := keepsTurning_sound h.2
        have hneg : turnAt points index < 0 := by
          refine lt_of_le_of_ne (not_lt.mp hpos) fun hzero => hflat ?_
          rw [hzero, abs_zero]
          positivity
        refine .inr (forall_mem_cons.mpr ⟨⟨hneg, h.1⟩, fun i hi => ?_⟩)
        obtain hpos | hneg := ih
        · exact absurd (hpos i hi).2 (by decide)
        · exact ⟨(hneg i hi).1, h.1⟩

variable {quad : NormalizedQuad}

theorem NormalizedQuad.turns (h : quad.validate = .ok ()) :
    (∀ i, 0 < others quad.points i) ∨ ∀ i, others quad.points i < 0 := by
  rw [NormalizedQuad.validate] at h
  split_ifs at h with hconvex
  simp only [validateConvexPolygon, Bool.and_eq_true] at hconvex
  have hturn : ∀ i : Fin 4, others quad.points i =
      turnAt (ofFn quad.points) ((i + 1 : Fin 4) : ℕ) := by
    intro i
    fin_cases i <;> simp [others, turnAt, ofFn_succ]
  simp only [hturn]
  have hmem : ∀ i : Fin 4, (i : ℕ) ∈ range (ofFn quad.points).length := by
    simp
  obtain hpos | hneg := keepsTurning_sound hconvex.2
  · exact .inl fun i => (hpos _ (hmem _)).1
  · exact .inr fun i => (hneg _ (hmem _)).1

theorem NormalizedQuad.others_ne_zero (h : quad.validate = .ok ()) (i : Fin 4) :
    others quad.points i ≠ 0 :=
  (turns h).elim (fun hpos => (hpos i).ne') fun hneg => (hneg i).ne

open NormalizedRect

theorem NormalizedRect.positive {rect : NormalizedRect}
    (h : rect.validate = .ok ()) : 0 < rect.width ∧ 0 < rect.height := by
  rw [validate] at h
  split_ifs at h with hbad
  simp only [not_or, not_le] at hbad
  exact ⟨hbad.2.2.1, hbad.2.2.2.1⟩

variable {p q : Fin 4 → Point} {map y : Fin 9 → ℚ} {threshold : ℚ}
  {source : NormalizedRect} {output : NormalizedQuad}

theorem affine_barycentric (a b c : ℚ) (p : Fin 4 → Point) (x : Point) :
    others p 3 * affine a b c x =
      cross x (p 1) (p 2) * affine a b c (p 0) +
        cross (p 0) x (p 2) * affine a b c (p 1) + cross (p 0) (p 1) x * affine a b c (p 2) := by
  simp only [others, cross, affine, Fin.reduceAdd]
  ring

theorem affine_corners (a b c : ℚ) (p : Fin 4 → Point) :
    others p 0 * affine a b c (p 0) - others p 1 * affine a b c (p 1) +
      others p 2 * affine a b c (p 2) - others p 3 * affine a b c (p 3) = 0 := by
  simp only [others, cross, affine, Fin.reduceAdd]
  ring

variable {c a b : ℚ}

theorem affine_eq_zero (hturn : others p 3 ≠ 0)
    (h : ∀ i, affine a b c (p i) = 0) : a = 0 ∧ b = 0 ∧ c = 0 := by
  have hzero : ∀ x, affine a b c x = 0 := by
    intro x
    have hx := affine_barycentric a b c p x
    rw [h, h, h, mul_zero, mul_zero, mul_zero, add_zero, add_zero] at hx
    exact (mul_eq_zero.mp hx).resolve_left hturn
  have hc : c = 0 := by simpa [affine] using hzero (0, 0)
  have ha : a = 0 := by simpa [affine, hc] using hzero (1, 0)
  have hb : b = 0 := by simpa [affine, hc] using hzero (0, 1)
  exact ⟨ha, hb, hc⟩

theorem annuls_iff : Annuls (homographySystem p q) y ↔ Maps (update y 8 (-y 8)) p q := by
  have hrows : ∀ p q : Point,
      ∑ c, uRow p q c * y c = affine (y 0) (y 1) (y 2) p - q.1 * affine (y 6) (y 7) (-y 8) p ∧
        ∑ c, vRow p q c * y c = affine (y 3) (y 4) (y 5) p - q.2 * affine (y 6) (y 7) (-y 8) p := by
    intro p q
    simp only [Fin.sum_univ_succ, uRow, vRow, affine]
    constructor <;> simp <;> ring
  simp only [Annuls, Maps, denominator, Fin.forall_fin_succ, homographySystem]
  simp [hrows, sub_eq_zero, and_assoc]

theorem denominator_corners (hsrc : source.validate = .ok ()) (h : Maps map p source.corners) :
    ∃ c, ∀ i, others p i * denominator map (p i) = c := by
  obtain ⟨hwidth, hheight⟩ := positive hsrc
  have hu := affine_corners (map 0) (map 1) (map 2) p
  have hv := affine_corners (map 3) (map 4) (map 5) p
  have hw : others p 0 * denominator map (p 0) -
      others p 1 * denominator map (p 1) + others p 2 * denominator map (p 2) -
      others p 3 * denominator map (p 3) = 0 := affine_corners _ _ _ p
  rw [(h 0).1, (h 1).1, (h 2).1, (h 3).1] at hu
  rw [(h 0).2, (h 1).2, (h 2).2, (h 3).2] at hv
  simp only [corners, Matrix.cons_val] at hu hv
  generalize denominator map = w at hu hv hw ⊢
  have hsides : others p 1 * w (p 1) = others p 2 * w (p 2) := by
    refine mul_left_cancel₀ hwidth.ne' ?_
    linear_combination source.x * hw - hu
  have hends : others p 2 * w (p 2) = others p 3 * w (p 3) := by
    refine mul_left_cancel₀ hheight.ne' ?_
    linear_combination hv - source.y * hw
  refine ⟨others p 2 * w (p 2), fun i => ?_⟩
  fin_cases i
  · show others p 0 * w (p 0) = _
    linear_combination hw + hsides - hends
  · exact hsides
  · rfl
  · exact hends.symm

theorem horizon_eq (p : Fin 4 → Point) :
    horizon p 2 =
      others p 1 * others p 2 * cross (0, 0) (p 1) (p 2) +
        others p 0 * others p 2 * cross (p 0) (0, 0) (p 2) +
          others p 0 * others p 1 * cross (p 0) (p 1) (0, 0) := by
  simp only [horizon, others, cross, cross_apply, Matrix.cons_val, Fin.reduceAdd]
  ring

/-- The coefficients of the affine function with these multiples of its values
at three corners. -/
def through (p : Fin 4 → Point) (f : Fin 3 → ℚ) : Fin 3 → ℚ :=
  ![((p 1).2 - (p 2).2) * f 0 + ((p 2).2 - (p 0).2) * f 1 + ((p 0).2 - (p 1).2) * f 2,
    ((p 2).1 - (p 1).1) * f 0 + ((p 0).1 - (p 2).1) * f 1 + ((p 1).1 - (p 0).1) * f 2,
    cross (0, 0) (p 1) (p 2) * f 0 + cross (p 0) (0, 0) (p 2) * f 1 +
      cross (p 0) (p 1) (0, 0) * f 2]

theorem affine_through (p : Fin 4 → Point) (f : Fin 3 → ℚ) (x : Point) :
    affine (through p f 0) (through p f 1) (through p f 2) x =
      cross x (p 1) (p 2) * f 0 + cross (p 0) x (p 2) * f 1 + cross (p 0) (p 1) x * f 2 := by
  simp only [affine, through, cross, Matrix.cons_val]
  ring

theorem cross_repeated (a b : Point) : cross a a b = 0 ∧ cross a b b = 0 ∧ cross a b a = 0 := by
  simp only [cross]
  refine ⟨?_, ?_, ?_⟩ <;> ring

theorem exists_maps (hturn : ∀ i, others p i ≠ 0) (hhorizon : horizon p 2 = 0) :
    ∃ map, Maps map p source.corners ∧ map 8 = 0 ∧ map ≠ 0 := by
  let w : Fin 3 → ℚ := ![others p 1 * others p 2, others p 0 * others p 2, others p 0 * others p 1]
  let corner (i : Fin 3) := source.corners i.castSucc
  let a := through p fun i => (corner i).1 * w i
  let b := through p fun i => (corner i).2 * w i
  let c := through p w
  have hc : c 2 = 0 := by
    rw [← hhorizon, horizon_eq]
    simp only [c, w, through, Matrix.cons_val]
    ring
  have hfourth : cross (p 3) (p 1) (p 2) = others p 0 ∧ cross (p 0) (p 3) (p 2) = -others p 1 ∧
      cross (p 0) (p 1) (p 3) = others p 2 := by
    simp only [others, cross, Fin.reduceAdd]
    refine ⟨?_, ?_, ?_⟩ <;> ring
  refine ⟨![a 0, a 1, a 2, b 0, b 1, b 2, c 0, c 1, c 2], fun i => ?_, hc, fun hmap => ?_⟩
  · simp only [denominator, Matrix.cons_val]
    rw [affine_through, affine_through, affine_through]
    fin_cases i <;>
      simp only [corner, w, corners, cross_repeated, hfourth, Matrix.cons_val, Fin.castSucc_zero,
        Fin.castSucc_one, Fin.reduceCastSucc, Fin.zero_eta, Fin.mk_one, Fin.reduceFinMk] <;>
      constructor <;> ring
  · have hval := affine_through p w (p 0)
    have h6 : c 0 = 0 := congrFun hmap 6
    have h7 : c 1 = 0 := congrFun hmap 7
    simp only [c] at hc h6 h7
    have hcross : cross (p 0) (p 1) (p 2) = others p 3 := rfl
    have hproduct : others p 3 * (others p 1 * others p 2) = 0 := by
      rw [hc, h6, h7, hcross] at hval
      simp only [affine, cross, w, Matrix.cons_val] at hval
      linear_combination -hval
    simp only [mul_eq_zero, hturn, or_self] at hproduct

theorem solve_isSome (hsrc : source.validate = .ok ()) (hout : output.validate = .ok ()) :
    (solve 0 (homographySystem output.points source.corners)).isSome ↔
      ¬HorizonMeetsOrigin output := by
  have hturn := NormalizedQuad.others_ne_zero hout
  have hupdate : ∀ map : Fin 9 → ℚ, map 8 = 0 → update map 8 (-map 8) = map := by
    intro map hlast
    rw [update_eq_self_iff, hlast, neg_zero]
  rw [solve_isSome_iff]
  constructor
  · intro h hhorizon
    obtain ⟨map, hmaps, hlast, hne⟩ := exists_maps hturn hhorizon
    refine hne (h map (annuls_iff.mpr ?_) hlast)
    rwa [hupdate map hlast]
  · intro hhorizon map hannuls hlast
    have hlast : map 8 = 0 := hlast
    have hmaps := annuls_iff.mp hannuls
    rw [hupdate map hlast] at hmaps
    obtain ⟨c, hc⟩ := denominator_corners hsrc hmaps
    have hc0 : c = 0 := by
      have hline := affine_barycentric (map 6) (map 7) (map 8) output.points (0, 0)
      have horig : affine (map 6) (map 7) (map 8) (0, 0) = 0 := by simp [affine, hlast]
      rw [horig] at hline
      have hproduct : c * horizon output.points 2 = 0 := by
        rw [horizon_eq]
        simp only [denominator] at hc
        generalize affine (map 6) (map 7) (map 8) = w at hc hline
        generalize others output.points = d at hc hline ⊢
        generalize output.points = p at hc hline ⊢
        linear_combination
          -(d 1 * d 2 * cross (0, 0) (p 1) (p 2)) * hc 0
            - d 0 * d 2 * cross (p 0) (0, 0) (p 2) * hc 1
            - d 0 * d 1 * cross (p 0) (p 1) (0, 0) * hc 2
            - d 0 * d 1 * d 2 * hline
      exact (mul_eq_zero.mp hproduct).resolve_right hhorizon
    have hw : ∀ i, denominator map (output.points i) = 0 := fun i =>
      (mul_eq_zero.mp ((hc i).trans hc0)).resolve_left (hturn i)
    obtain ⟨h6, h7, -⟩ := affine_eq_zero (hturn 3) hw
    obtain ⟨h0, h1, h2⟩ := affine_eq_zero (hturn 3) fun i => by
      rw [(hmaps i).1, hw, mul_zero]
    obtain ⟨h3, h4, h5⟩ := affine_eq_zero (hturn 3) fun i => by
      rw [(hmaps i).2, hw, mul_zero]
    ext i
    fin_cases i <;> assumption

theorem solveHomography_isSome (p q : Fin 4 → Point) :
    (solveHomography threshold p q).isSome = (solve threshold (homographySystem p q)).isSome := by
  rw [solveHomography, Option.isSome_map]

theorem validateGeometry_quad :
    validateGeometry threshold (.perspectiveQuad source output) = .ok () ↔
      source.validate = .ok () ∧ output.validate = .ok () ∧
        (solveHomography threshold output.points source.corners).isSome := by
  rw [validateGeometry]
  cases source.validate with
  | error error => exact iff_of_false nofun fun h => nomatch h.1
  | ok _ =>
    cases output.validate with
    | error error => exact iff_of_false nofun fun h => nomatch h.2.1
    | ok _ =>
      cases solveHomography threshold output.points source.corners with
      | none => exact iff_of_false nofun fun h => nomatch h.2.2
      | some map => exact iff_of_true rfl ⟨rfl, rfl, rfl⟩

/-- The solver accepts a convex quad exactly if its horizon leaves out the
origin. -/
theorem convex_quad_accepted_iff (source : NormalizedRect) (output : NormalizedQuad)
    (hsource : source.validate = .ok ()) (houtput : output.validate = .ok ()) :
    ((solveHomography 0 output.points source.corners).isSome ∧
        validateGeometry 0 (.perspectiveQuad source output) = .ok () ∧
          (planGeometry 0 (.perspectiveQuad source output)).isSome) ↔
      ¬HorizonMeetsOrigin output := by
  rw [validateGeometry_quad, planGeometry, Option.isSome_map,
    solveHomography_isSome, solve_isSome hsource houtput]
  simp [hsource, houtput]

def fullRect : NormalizedRect := ⟨0, 0, 1, 1⟩

def unitQuad : NormalizedQuad := ⟨![(0, 0), (1, 0), (1, 1), (0, 1)]⟩

/-- A keystone whose sides meet on the upper edge of the output. -/
def keystone : NormalizedQuad := ⟨![(3 / 8, 1 / 4), (5 / 8, 1 / 4), (7 / 8, 3 / 4), (1 / 8, 3 / 4)]⟩

theorem horizon_unitQuad : ¬HorizonMeetsOrigin unitQuad := by
  rw [HorizonMeetsOrigin]
  decide +kernel

theorem convex_quad_accepted_iff_unitQuad :
    ((solveHomography 0 unitQuad.points fullRect.corners).isSome ∧
        validateGeometry 0 (.perspectiveQuad fullRect unitQuad) = .ok () ∧
          (planGeometry 0 (.perspectiveQuad fullRect unitQuad)).isSome) ↔
      ¬HorizonMeetsOrigin unitQuad :=
  convex_quad_accepted_iff fullRect unitQuad (by decide +kernel) (by decide +kernel)

/-- A strictly convex quad inside the unit square that the solver refuses. -/
theorem keystone_is_refused :
    fullRect.validate = .ok () ∧ keystone.validate = .ok () ∧
      solveHomography 0 keystone.points fullRect.corners = none ∧
        validateGeometry 0 (.perspectiveQuad fullRect keystone) = .error .invalidOutputRegion ∧
          (planGeometry 0 (.perspectiveQuad fullRect keystone)).isNone := by
  have hsource : fullRect.validate = .ok () := by decide +kernel
  have houtput : keystone.validate = .ok () := by decide +kernel
  have hhorizon : HorizonMeetsOrigin keystone := by
    rw [HorizonMeetsOrigin]
    decide +kernel
  have hsolve : solveHomography 0 keystone.points fullRect.corners = none := by
    rw [← Option.not_isSome_iff_eq_none, solveHomography_isSome, solve_isSome hsource houtput]
    exact not_not.mpr hhorizon
  refine ⟨hsource, houtput, hsolve, ?_, ?_⟩
  · rw [validateGeometry, hsource, houtput, hsolve]
    rfl
  · rw [planGeometry, hsolve]
    rfl

def NormalizedRect.Contains (rect : NormalizedRect) (p : Point) : Prop :=
  p.1 ∈ Set.Icc rect.x (rect.x + rect.width) ∧ p.2 ∈ Set.Icc rect.y (rect.y + rect.height)

/-- The map takes the corners exactly to those of the source and the quad into
it, with one sign of the denominator. -/
structure Warped (source : NormalizedRect) (output : NormalizedQuad) (map : Fin 9 → ℚ) : Prop where
  corners : ∀ i, projectiveUv map (output.points i) = source.corners i
  sign : (∀ p ∈ convexHull ℚ (Set.range output.points), 0 < denominator map p) ∨
    ∀ p ∈ convexHull ℚ (Set.range output.points), denominator map p < 0
  inside : ∀ p ∈ convexHull ℚ (Set.range output.points), source.Contains (projectiveUv map p)

theorem affine_scaled (s a b c : ℚ) (x : Point) :
    affine (s * a) (s * b) (s * c) x = s * affine a b c x := by
  simp only [affine]
  ring

theorem affine_hull {s : Set ℚ} (hs : Convex ℚ s) (h : ∀ i, affine a b c (p i) ∈ s) :
    ∀ x ∈ convexHull ℚ (Set.range p), affine a b c x ∈ s := by
  refine fun x hx => convexHull_min (t := {x | affine a b c x ∈ s})
    (Set.range_subset_iff.mpr h) ?_ hx
  intro x hx y hy α β hα hβ hsum
  have hcombination : affine a b c (α • x + β • y) = α • affine a b c x + β • affine a b c y := by
    simp only [affine, Prod.fst_add, Prod.snd_add, Prod.smul_fst, Prod.smul_snd, smul_eq_mul]
    linear_combination -c * hsum
  have hmem := hs hx hy hα hβ hsum
  rwa [← hcombination] at hmem

variable {s : ℚ}

theorem scaled_hull (h : ∀ i, 0 < s * affine a b c (p i)) :
    ∀ x ∈ convexHull ℚ (Set.range p), 0 < s * affine a b c x := by
  intro x hx
  rw [← affine_scaled]
  refine affine_hull (convex_Ioi 0) (fun i => ?_) x hx
  rw [affine_scaled]
  exact h i

theorem ratio_mem {a' b' c' low high : ℚ} {u : Fin 4 → ℚ}
    (hsign : ∀ i, 0 < s * affine a' b' c' (p i))
    (hu : ∀ i, affine a b c (p i) = u i * affine a' b' c' (p i))
    (hbds : ∀ i, u i ∈ Set.Icc low high) :
    ∀ x ∈ convexHull ℚ (Set.range p), affine a b c x / affine a' b' c' x ∈ Set.Icc low high := by
  intro x hx
  have hpos := scaled_hull hsign x hx
  have hdifference : ∀ t v : ℚ, (∀ i, 0 ≤ t * (u i - v)) →
      0 ≤ t * (s * affine a b c x - v * (s * affine a' b' c' x)) := by
    intro t v hv
    have hform : ∀ x, affine (t * (s * (a - v * a'))) (t * (s * (b - v * b')))
        (t * (s * (c - v * c'))) x = t * (s * affine a b c x - v * (s * affine a' b' c' x)) := by
      intro x
      simp only [affine]
      ring
    rw [← hform]
    refine affine_hull (convex_Ici 0) (fun i => ?_) x hx
    rw [hform, hu]
    have hcorner := mul_nonneg (hv i) (hsign i).le
    refine Set.mem_Ici.mpr ?_
    linear_combination hcorner
  have hs : s ≠ 0 := by
    rintro rfl
    exact absurd hpos (by simp)
  have hlow := hdifference 1 low fun i => by
    rw [one_mul]
    exact sub_nonneg.mpr (hbds i).1
  have hhigh := hdifference (-1) high fun i => by
    rw [neg_one_mul, neg_sub]
    exact sub_nonneg.mpr (hbds i).2
  rw [← mul_div_mul_left _ _ hs, Set.mem_Icc, le_div_iff₀ hpos, div_le_iff₀ hpos]
  constructor <;> linarith

theorem denominator_sign (hlast : map 8 = 1) (hturn : (∀ i, 0 < others p i) ∨ ∀ i, others p i < 0)
    (hc : ∀ i, others p i * denominator map (p i) = c) :
    ∃ s : ℚ, ∀ i, 0 < s * denominator map (p i) := by
  have hc0 : c ≠ 0 := by
    rintro rfl
    have hne : ∀ i, others p i ≠ 0 := fun i =>
      hturn.elim (fun hpos => (hpos i).ne') fun hneg => (hneg i).ne
    have hzero := affine_eq_zero (hne 3) fun i => (mul_eq_zero.mp (hc i)).resolve_left (hne i)
    exact absurd (hlast.symm.trans hzero.2.2) one_ne_zero
  have hsquare := mul_self_pos.mpr hc0
  obtain hpos | hneg := hturn
  · refine ⟨c, fun i => pos_of_mul_pos_right ?_ (hpos i).le⟩
    rwa [mul_left_comm, hc]
  · refine ⟨-c, fun i => ?_⟩
    have hproduct : 0 < -others p i * (-c * denominator map (p i)) := by
      rwa [neg_mul_comm, neg_mul, neg_neg, mul_left_comm, hc]
    exact pos_of_mul_pos_right hproduct (neg_pos.mpr (hneg i)).le

theorem solveHomography_some (hthr : 0 ≤ threshold) (h : solveHomography threshold p q = some map) :
    map 8 = 1 ∧ Maps map p q := by
  obtain ⟨x, hx, rfl⟩ := Option.map_eq_some_iff.mp h
  let y : Fin 9 → ℚ := lastCases (motive := fun _ => ℚ) (-1) x
  have hannuls : Annuls (homographySystem p q) y := by
    refine (solve_some hthr hx y).mpr fun row => ?_
    simp only [y, lastCases_castSucc, lastCases_last, mul_neg_one, neg_neg]
  have hsame : update y 8 (-y 8) = lastCases (motive := fun _ => ℚ) 1 x := by
    ext c
    induction c using lastCases with
    | last => exact neg_neg (1 : ℚ)
    | cast row =>
      refine (update_of_ne (castSucc_ne_last row) _ _).trans ?_
      simp only [y, lastCases_castSucc]
  exact ⟨rfl, hsame ▸ annuls_iff.mp hannuls⟩

theorem accepted_quad_is_warped (threshold : ℚ) (hthreshold : 0 ≤ threshold)
    (source : NormalizedRect) (output : NormalizedQuad)
    (h : validateGeometry threshold (.perspectiveQuad source output) = .ok ()) :
    ∃ map, solveHomography threshold output.points source.corners = some map ∧
      Warped source output map := by
  obtain ⟨hsource, houtput, hsome⟩ := validateGeometry_quad.mp h
  obtain ⟨map, hmap⟩ := Option.isSome_iff_exists.mp hsome
  obtain ⟨hlast, hmaps⟩ := solveHomography_some hthreshold hmap
  obtain ⟨hwidth, hheight⟩ := positive hsource
  obtain ⟨c, hc⟩ := denominator_corners hsource hmaps
  obtain ⟨s, hsign⟩ := denominator_sign hlast (NormalizedQuad.turns houtput) hc
  refine ⟨map, hmap, fun i => ?_, ?_, fun p hp => ⟨?_, ?_⟩⟩
  · have hne : denominator map (output.points i) ≠ 0 := right_ne_zero_of_mul (hsign i).ne'
    rw [projectiveUv, (hmaps i).1, (hmaps i).2, mul_div_cancel_right₀ _ hne,
      mul_div_cancel_right₀ _ hne]
  · have hscaled : ∀ p ∈ convexHull ℚ (Set.range output.points),
        0 < s * denominator map p :=
      scaled_hull hsign
    obtain hneg | rfl | hpos := lt_trichotomy s 0
    · exact .inr fun p hp => neg_of_mul_pos_right (hscaled p hp) hneg.le
    · exact absurd (hsign 0) (by simp)
    · exact .inl fun p hp => pos_of_mul_pos_right (hscaled p hp) hpos.le
  · refine ratio_mem hsign (fun i => (hmaps i).1) (fun i => ?_) p hp
    fin_cases i <;> simp [corners, hwidth.le]
  · refine ratio_mem hsign (fun i => (hmaps i).2) (fun i => ?_) p hp
    fin_cases i <;> simp [corners, hheight.le]

theorem accepted_quad_is_warped_unitQuad :
    ∃ map, solveHomography 0 unitQuad.points fullRect.corners = some map ∧
      Warped fullRect unitQuad map := by
  have hsource : fullRect.validate = .ok () := by decide +kernel
  have houtput : unitQuad.validate = .ok () := by decide +kernel
  refine accepted_quad_is_warped 0 le_rfl fullRect unitQuad
    (validateGeometry_quad.mpr ⟨hsource, houtput, ?_⟩)
  rw [solveHomography_isSome]
  exact (solve_isSome hsource houtput).mpr horizon_unitQuad

end CollideOScope.Stage
