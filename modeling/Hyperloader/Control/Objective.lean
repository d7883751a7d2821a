/-
Module: Hyperloader.Control.Objective
Purpose: The controller's objective, control/objective.py: starvation first, and then the
  resource loss read off the curves of a calibration record.
Trusted boundary: rates and losses are of one kind of number with the operations of `float`,
  of which no law is used; a record keeps its curves only, and the memory penalty is zero.
Main exports: Curve, CalibrationRecord, interpolate, ControllerObjective, score_eq
-/
import Mathlib.Data.Nat.Cast.Defs

namespace Hyperloader.Control

/-- A calibration curve: at least two points, at increasing coordinates (`_validate_points`). -/
structure Curve (Coordinate Reading : Type) [LT Coordinate] where
  first : Coordinate × Reading
  others : List (Coordinate × Reading)
  several : others ≠ []
  increasing : ((first :: others).map Prod.fst).Pairwise (· < ·)

/-- Width-to-loss curve for one cluster and loader work shape. -/
structure StealCurve (Rate : Type) where
  cluster : String
  workShape : String
  points : Curve Nat Rate

/-- Accelerator loss at one loader-attributable copied-byte rate. -/
structure BandwidthLoss (Rate : Type) where
  computeLossFraction : Rate
  bandwidthLossFraction : Rate

/-- Machine-keyed curves used by the resource controller. -/
structure CalibrationRecord (Rate : Type) [LT Rate] where
  stealCurves : List (StealCurve Rate)
  bandwidthCurve : Curve Rate (BandwidthLoss Rate)

/-- Evaluate starvation first and calibrated resource loss second. -/
structure ControllerObjective (Rate : Type) [LT Rate] where
  calibration : Option (CalibrationRecord Rate)

variable {Rate : Type} [LT Rate] [LE Rate] [DecidableLE Rate]
  [Zero Rate] [NatCast Rate] [Add Rate] [Sub Rate] [Mul Rate] [Div Rate]

/-- The loop of `_interpolate` over successive points, from the left one of the next pair. -/
def interpolateFrom (left : Rate × Rate) (points : List (Rate × Rate)) (coordinate : Rate) : Rate :=
  match points with
  | [] => left.2
  | right :: points =>
      if coordinate ≤ right.1 then
        left.2 + (coordinate - left.1) / (right.1 - left.1) * (right.2 - left.2)
      else interpolateFrom right points coordinate

/-- `_interpolate`, at the points that a curve's points stand for. -/
def interpolate {Coordinate Reading : Type} [LT Coordinate] (curve : Curve Coordinate Reading)
    (point : Coordinate × Reading → Rate × Rate) (coordinate : Rate) : Rate :=
  if coordinate ≤ (point curve.first).1 then (point curve.first).2
  else interpolateFrom (point curve.first) (curve.others.map point) coordinate

namespace ControllerObjective

variable (objective : ControllerObjective Rate)

/-- `_steal_loss`: the width itself where no curve is for the cluster and the work shape. -/
def stealLoss (width : Nat) (workShape cluster : String) : Rate :=
  match objective.calibration with
  | none => width
  | some calibration =>
      match calibration.stealCurves.find? fun item =>
          item.cluster == cluster && item.workShape == workShape with
      | none => width
      | some curve => interpolate curve.points (fun point => (point.1, point.2)) width

/-- `_bandwidth_loss` -/
def bandwidthLoss (rate : Rate) (workShape : String) : Rate :=
  match objective.calibration with
  | none => 0
  | some calibration =>
      let fraction :=
        if workShape = "compute" then BandwidthLoss.computeLossFraction
        else BandwidthLoss.bandwidthLossFraction
      interpolate calibration.bandwidthCurve (fun point => (point.1, fraction point.2)) rate

/-- Return a tuple whose ordinary ordering implements the objective. -/
def score [DecidableLT Rate] (starvation : Bool) (width : Nat) (workShape cluster : String)
    (rate : Rate) : Except String (Nat × Rate) :=
  if width ≤ 0 ∨ rate < 0 then .error "controller objective inputs must be nonnegative"
  else .ok (starvation.toNat,
    objective.stealLoss width workShape cluster + objective.bandwidthLoss rate workShape + 0)

/-- A positive width and a rate that is not negative have a score, whatever the calibration. -/
theorem score_eq [DecidableLT Rate] {width : Nat} {rate : Rate} (positive : 1 ≤ width)
    (measured : ¬rate < 0) (starvation : Bool) (workShape cluster : String) :
    ∃ loss, objective.score starvation width workShape cluster rate =
      .ok (starvation.toNat, loss) := by
  refine ⟨_, if_neg ?_⟩
  rintro (none | negative)
  · exact Nat.not_succ_le_zero _ (Nat.le_trans positive none)
  · exact measured negative

end ControllerObjective

end Hyperloader.Control
