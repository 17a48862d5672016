import Gcode.Dialect.LinuxCnc

/-! What reading program text depends on besides the text. -/

namespace Gcode

structure Settings where
  dialect : Dialect := Dialect.linuxCnc
  /-- The decimal places of the format `position`. -/
  xyDecimals : Precision := Precision.standard
  /-- Whether the instructions of a block are checked for conflicts. -/
  verify : Bool := true

namespace Settings

/-- Settings are the same when they choose the same dialect, precision and check. -/
def same (left right : Settings) : Bool :=
  left.dialect.same right.dialect && left.xyDecimals == right.xyDecimals
    && left.verify == right.verify

end Settings
end Gcode
