import KkLicode.Rtp.DataPacket
import KkLicode.Stats.MovingIntervalRateStat
import Mathlib.Logic.Function.Basic

/-! `LayerBitrateCalculationHandler`: how much of each layer of a video is written,
for the quality manager to choose between the layers. -/

namespace KkLicode.Rtp

open Stats

/-- In milliseconds. -/
def kLayerRateStatIntervalSize : UInt64 := 100

def kLayerRateStatIntervals : UInt32 := 30

/-- The statistics have a node for each spatial layer, and in it one for each temporal layer. -/
structure LayerBitrateCalculationHandler where
  enabled : Bool := true
  initialized : Bool := false
  qualityLayers : ℤ → ℤ → Option MovingIntervalRateStat := fun _ _ => none

namespace LayerBitrateCalculationHandler

/-- The packet with which a layer is first seen is not counted. -/
def addToLayer (packet : DataPacket) (nowMs : UInt64) (h : LayerBitrateCalculationHandler)
    (layer : ℤ × ℤ) : LayerBitrateCalculationHandler :=
  let node := h.qualityLayers layer.1
  let stat :=
    match node layer.2 with
    | none => .new kLayerRateStatIntervalSize kLayerRateStatIntervals
    | some stat => stat.add nowMs (.ofNat packet.length)
  { h with qualityLayers :=
      Function.update h.qualityLayers layer.1 (Function.update node layer.2 (some stat)) }

/-- The layers that `write` goes through. -/
def layersOf (packet : DataPacket) : List (ℤ × ℤ) :=
  packet.compatibleSpatialLayers.flatMap fun spatial =>
    packet.compatibleTemporalLayers.map fun temporal => (spatial, temporal)

/-- `write`, which tells the quality manager and passes the packet on. -/
def write {Q : Type} (notifyQualityUpdate : Q → Q) (h : LayerBitrateCalculationHandler)
    (qualityManager : Q) (nowMs : UInt64) (packet : DataPacket) :
    LayerBitrateCalculationHandler × Q × List Action :=
  if !h.enabled || !h.initialized then (h, qualityManager, [.write packet])
  else
    ((layersOf packet).foldl (addToLayer packet nowMs) h, notifyQualityUpdate qualityManager,
      [.write packet])

end LayerBitrateCalculationHandler

end KkLicode.Rtp
