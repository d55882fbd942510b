import Mathlib.Logic.Function.Basic

namespace Sonarr.Providers

/-- `indexer.DownloadProtocol`. -/
inductive DownloadProtocol
  | usenet
  | torrent
  deriving DecidableEq, Repr

/-- `indexer.Release`, the fields that leave the indexer package. -/
structure Release where
  title : String
  downloadURL : String
  size : Int
  indexer : String
  protocol : DownloadProtocol
  deriving DecidableEq, Repr

/-- `downloadclient.Item`. -/
structure Item where
  downloadID : String
  title : String
  status : String
  totalSize : Int
  remaining : Int
  outputPath : String
  deriving DecidableEq, Repr

/-- `downloadclient.Instance`: a configured client, its settings still JSON text. -/
structure Instance where
  id : Nat
  name : String
  implementation : String
  settings : String
  enable : Bool
  priority : Int
  deriving DecidableEq, Repr

/-- A configured client acting on the outside world `σ`. -/
structure Client (σ : Type) where
  add : σ → String → String → Except String String × σ
  items : σ → Except String (List Item) × σ

/-- What a registered factory gives: a protocol known without settings, and a
client once the stored settings decode onto its defaults. -/
structure Factory (σ : Type) where
  protocol : DownloadProtocol
  configure : String → Option (Client σ)

abbrev Registry (σ : Type) := String → Option (Factory σ)

/-- The registered, configured client of an instance. -/
def Registry.client (registry : Registry σ) (inst : Instance) : Option (Client σ) :=
  (registry inst.implementation).bind (fun f => f.configure inst.settings)

end Sonarr.Providers
