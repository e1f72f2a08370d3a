import ConsentBanner.Template.Basic

/-!
Positions and styles on a device: the first block that is not empty, from the device itself to wider ones.
-/

namespace ConsentBanner

/-- The devices whose blocks apply, the most specific one first. -/
def Device.chain : Device → List Device
  | .mobile => [.mobile, .tablet, .desktop]
  | .tablet => [.tablet, .desktop]
  | .desktop => [.desktop]

namespace ComponentData

def effectivePosition (c : ComponentData) (d : Device) : Option (List (Side × String)) :=
  (d.chain.map c.positionFor).find? (!·.isEmpty)

def effectiveStyle (c : ComponentData) (d : Device) : List (String × Json) :=
  ((d.chain.map c.styleFor).find? (!·.isEmpty)).getD []

end ComponentData

end ConsentBanner
