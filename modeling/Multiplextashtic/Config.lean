import Multiplextashtic.Protocol

/-! # Configuration

The sections of `AppConfig` the modelled code reads, with the defaults of
`config.py`. -/
namespace Multiplextashtic.Config

structure VirtualNodeConfig where
  longName : String := "Virtual Multiplexer"
  shortName : String := "VMUX"
  syncPhysicalIdentity : Bool := true
  deriving DecidableEq, Repr

structure SecurityConfig where
  blockedPortnums : List String := ["ADMIN_APP"]
  allowAdminFromIps : List String := []
  deriving DecidableEq, Repr

structure AppConfig where
  virtualNode : VirtualNodeConfig := {}
  security : SecurityConfig := {}
  deriving DecidableEq, Repr

end Multiplextashtic.Config
