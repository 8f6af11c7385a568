import Metamodel.Generation.Settings
import Metamodel.Loading

/-! All settings, by the stage that they are for. -/

namespace Metamodel

structure ReadingSettings where
  /-- The attribute that tells the kind of an element where its tag does not. -/
  discriminator : String := "xsi:type"
  deriving DecidableEq, Repr

structure Configuration where
  reading : ReadingSettings := {}
  loading : LoadSettings := {}
  generation : GenerationSettings := {}
  deriving DecidableEq, Repr

end Metamodel
