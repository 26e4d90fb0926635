import BlockLink.Bus.Program
import BlockLink.Link.Window

/-!
The register window of one side of a link as a bus.
-/

namespace BlockLink.Link

/-- The bus on which firmware sees one side of a link. -/
def bus (side : Side) : Bus Link where
  read := readRegister side
  write := writeRegister side
  now := Step.observe fun link => link.time

end BlockLink.Link
