import Quadrotor.Axes

/-!
# Battery cell

A cell that drains with the current of the motors. Its voltage follows the charge, flat in the middle
and steep at both ends, and sags with the current.
-/

namespace Quadrotor

/-- A cell as built. -/
structure CellParams where
  /-- Capacity [mAh]. -/
  capacity : Scalar := 300.0
  /-- The state of charge to start with. -/
  initialCharge : Scalar := 1.0
  /-- Internal resistance [Ω]. -/
  resistance : Scalar := 0.08
  /-- Current with all motors at full duty [A]. -/
  maxCurrent : Scalar := 6.0
  deriving BEq, Repr, Inhabited

/-- A cell in use. -/
structure Cell where
  params : CellParams
  /-- The state of charge, from empty at zero to full at one. -/
  charge : Scalar
  /-- The present current [A]. -/
  current : Scalar := 0.0
  deriving Repr, Inhabited

namespace Cell

/-- A cell at rest with its initial charge, held within `[0, 1]`. -/
def new (params : CellParams) : Cell :=
  { params := params, charge := Scalar.confine 0.0 1.0 params.initialCharge }

/-- The cell with another charge, held within `[0, 1]`. -/
def withCharge (c : Cell) (charge : Scalar) : Cell :=
  { c with charge := Scalar.confine 0.0 1.0 charge }

/-- The current [A] that the motors draw at the given duties. -/
def currentFor (p : CellParams) (duties : PerMotor Scalar) : Scalar :=
  p.maxCurrent * Scalar.confine 0.0 1.0 (Scalar.sum duties.toList / 4.0)

/-- The charge [mAh] that a current draws in `dt` seconds. -/
def drawn (current dt : Scalar) : Scalar := current * 1000.0 * dt / 3600.0

/-- The cell after `dt` seconds of the given duties. -/
def step (c : Cell) (duties : PerMotor Scalar) (dt : Scalar) : Cell :=
  let current := currentFor c.params duties
  { c with
    current := current
    charge := Scalar.maxNum (c.charge - drawn current dt / c.params.capacity) 0.0 }

/-- A point of the discharge curve. -/
structure CurvePoint where
  charge : Scalar
  /-- Voltage without load [V]. -/
  voltage : Scalar
  deriving Repr, Inhabited

/-- The discharge curve between its first and its last point. -/
def curve : CurvePoint × List CurvePoint :=
  (⟨0.0, 3.0⟩, [⟨0.1, 3.55⟩, ⟨0.5, 3.8⟩, ⟨0.9, 4.05⟩, ⟨1.0, 4.2⟩])

/-- The voltage at a charge on the curve from `before` through `points`: on the first stretch whose
end is not below the charge, and at the end of the curve where there is none. -/
def interpolate (charge : Scalar) (before : CurvePoint) : List CurvePoint → Scalar
  | [] => before.voltage
  | point :: points =>
    if charge ≤ point.charge then
      before.voltage +
        (point.voltage - before.voltage) * (charge - before.charge) / (point.charge - before.charge)
    else interpolate charge point points

/-- The voltage [V] without load. -/
def openVoltage (charge : Scalar) : Scalar :=
  interpolate (Scalar.confine 0.0 1.0 charge) curve.1 curve.2

/-- The voltage [V] under the present load. -/
def voltage (c : Cell) : Scalar := openVoltage c.charge - c.current * c.params.resistance

end Cell

end Quadrotor
