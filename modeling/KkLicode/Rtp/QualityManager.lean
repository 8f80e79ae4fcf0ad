import Mathlib.Data.List.Induction
import Mathlib.Data.String.Basic
import KkLicode.Base.Double
import KkLicode.Base.StdMap

/-! `QualityManager::selectLayer`: the last layer in the statistics whose rate leaves room
below the estimate. The layers are counted where they stand in the map of the statistics,
which is ordered by the names of the nodes. So the choice is justified by the statistics
if and only if every node stands at the position that its name says. -/

namespace KkLicode.Rtp

open Base Double

/-- The nodes below `qualityLayers`, each with the names of its own nodes. -/
abbrev LayerNodes := StdMap String (StdMap String Unit)

structure QualityManager where
  paddingEnabled : Bool := false
  forcedLayers : Bool := false
  slideshowModeActive : Bool := false
  spatialLayer : ℤ := 0
  temporalLayer : ℤ := 0
  maxActiveSpatialLayer : ℤ := 0
  maxActiveTemporalLayer : ℤ := 0
  currentEstimatedBitrate : UInt64 := 0
  lastQualityCheck : ℤ := 0

namespace QualityManager

/-- 0.1 as a float. -/
def kIncreaseLayerBitrateThreshold : ℚ := 13421773 / 134217728

/-- The manager, the statistics, and how often the handlers were notified. -/
structure State where
  manager : QualityManager
  layers : LayerNodes
  notifications : ℕ := 0

def isInMaxLayer (m : QualityManager) : Bool :=
  m.spatialLayer ≥ m.maxActiveSpatialLayer && m.temporalLayer ≥ m.maxActiveTemporalLayer

/-- A cumulative statistic has no nodes of its own. -/
def insertStat (key : String) (s : State) : State :=
  { s with layers := s.layers.assign key .empty }

def setSpatialLayer (spatialLayer : ℤ) (s : State) : State :=
  insertStat "selectedSpatialLayer"
    (if s.manager.forcedLayers then s
    else { s with manager := { s.manager with spatialLayer := spatialLayer } })

def setTemporalLayer (temporalLayer : ℤ) (s : State) : State :=
  insertStat "selectedTemporalLayer"
    (if s.manager.forcedLayers then s
    else { s with manager := { s.manager with temporalLayer := temporalLayer } })

def setPadding (enabled : Bool) (s : State) : State :=
  if s.manager.paddingEnabled ≠ enabled then
    { s with
      manager := { s.manager with paddingEnabled := enabled }
      notifications := s.notifications + 1 }
  else s

/-- The variables of the loops of `selectLayer`. -/
structure Selection where
  auxTemporalLayer : ℤ := 0
  auxSpatialLayer : ℤ := 0
  nextTemporalLayer : ℤ := 0
  nextSpatialLayer : ℤ := 0
  belowMinLayer : Bool := true

/-- The layer has a rate, and with the margin it is below the estimate, in doubles. -/
def Fits (tryHigherLayers : Bool) (estimate rate : UInt64) : Prop :=
  rate ≠ 0 ∧
    toDouble (toDouble (1 + if tryHigherLayers then kIncreaseLayerBitrateThreshold else 0) *
      toDouble rate.toNat) < toDouble estimate.toNat

instance (tryHigherLayers : Bool) (estimate rate : UInt64) :
    Decidable (Fits tryHigherLayers estimate rate) := inferInstanceAs (Decidable (_ ∧ _))

section Loops

variable (fits : String → String → Bool)

/-- A turn of the inner loop. -/
def visitTemporal (spatial : String) (c : Selection) (temporal : String × Unit) : Selection :=
  let c :=
    if fits spatial temporal.1 then
      { c with
        nextTemporalLayer := c.auxTemporalLayer
        nextSpatialLayer := c.auxSpatialLayer
        belowMinLayer := false }
    else c
  { c with auxTemporalLayer := c.auxTemporalLayer + 1 }

/-- A turn of the outer loop. -/
def visitSpatial (c : Selection) (node : String × StdMap String Unit) : Selection :=
  let c := node.2.pairs.foldl (visitTemporal fits node.1) c
  { c with auxTemporalLayer := 0, auxSpatialLayer := c.auxSpatialLayer + 1 }

def selection (layers : LayerNodes) : Selection := layers.pairs.foldl (visitSpatial fits) {}

end Loops

/-- The fallback to a slide show, when no layer fits, and the way back from it. -/
def updateSlideshow (belowMinLayer tryHigherLayers : Bool) (s : State) : State :=
  if belowMinLayer ≠ s.manager.slideshowModeActive ∧ (belowMinLayer || tryHigherLayers) then
    { s with
      manager := { s.manager with slideshowModeActive := belowMinLayer }
      notifications := s.notifications + 1 }
  else s

/-- `selectLayer` with the rates that the nodes have at the time. -/
def selectLayer (rate : String → String → UInt64) (now : ℤ) (tryHigherLayers : Bool) (s : State) :
    State :=
  let c := selection (fun spatial temporal =>
    Fits tryHigherLayers s.manager.currentEstimatedBitrate (rate spatial temporal)) s.layers
  let s := { s with manager := { s.manager with lastQualityCheck := now } }
  let s := updateSlideshow c.belowMinLayer tryHigherLayers s
  if c.nextTemporalLayer ≠ s.manager.temporalLayer ∨ c.nextSpatialLayer ≠ s.manager.spatialLayer then
    let s := setSpatialLayer c.nextSpatialLayer (setTemporalLayer c.nextTemporalLayer s)
    setPadding (!s.manager.isInMaxLayer) s
  else s

/-! ### What the loops visit -/

/-- The nodes in front, and the nodes of the current one. -/
def Visited (nodes : List (String × StdMap String Unit)) (i j : ℕ) (spatial temporal : String) : Prop :=
  ∃ temporals, nodes[i]? = some (spatial, temporals) ∧ temporals.pairs[j]? = some (temporal, ())

/-- A selection from the visited nodes: nothing fits, or one that fits was chosen by its
position. -/
def Selection.Picks (visited : ℕ → ℕ → String → String → Prop) (fits : String → String → Bool)
    (c : Selection) : Prop :=
  if c.belowMinLayer then
    c.nextSpatialLayer = 0 ∧ c.nextTemporalLayer = 0 ∧
      ∀ i j spatial temporal, visited i j spatial temporal → ¬fits spatial temporal
  else
    ∃ i j spatial temporal, visited i j spatial temporal ∧ fits spatial temporal ∧
      c.nextSpatialLayer = (i : ℕ) ∧ c.nextTemporalLayer = (j : ℕ)

variable {fits : String → String → Bool} {visited visited' : ℕ → ℕ → String → String → Prop}
  {c : Selection}

/-- One node more is visited. -/
theorem Selection.Picks.visitTemporal {i j : ℕ} {spatial : String} {temporal : String × Unit}
    (h : c.Picks visited fits) (hi : c.auxSpatialLayer = i) (hj : c.auxTemporalLayer = j)
    (hv : ∀ i' j' s t, visited' i' j' s t ↔
      visited i' j' s t ∨ i' = i ∧ j' = j ∧ s = spatial ∧ t = temporal.1) :
    (QualityManager.visitTemporal fits spatial c temporal).Picks visited' fits := by
  rw [QualityManager.visitTemporal]
  by_cases hfits : fits spatial temporal.1
  · rw [if_pos hfits]
    exact ⟨i, j, spatial, temporal.1, (hv ..).mpr (.inr ⟨rfl, rfl, rfl, rfl⟩), hfits, hi, hj⟩
  · rw [if_neg hfits]
    unfold Picks at h ⊢
    dsimp only
    split_ifs at h ⊢
    · obtain ⟨hs, ht, hnone⟩ := h
      refine ⟨hs, ht, fun i' j' s t hvisited => ?_⟩
      rcases (hv ..).mp hvisited with hvisited | ⟨-, -, rfl, rfl⟩
      · exact hnone _ _ _ _ hvisited
      · exact hfits
    · obtain ⟨i', j', s, t, hvisited, hrest⟩ := h
      exact ⟨i', j', s, t, (hv ..).mpr (.inl hvisited), hrest⟩

theorem getElem?_concat_eq_some {α : Type*} {l : List α} {x y : α} {j : ℕ} :
    (l ++ [x])[j]? = some y ↔ l[j]? = some y ∨ j = l.length ∧ x = y := by
  rcases Nat.lt_trichotomy j l.length with hlt | rfl | hgt
  · rw [List.getElem?_append_left hlt]
    simp [hlt.ne]
  · simp
  · rw [List.getElem?_eq_none (by simpa using Nat.succ_le_of_lt hgt), List.getElem?_eq_none hgt.le]
    simp [hgt.ne']

/-- The inner loop visits the temporal nodes of a spatial one. -/
theorem Selection.Picks.foldl_visitTemporal {i : ℕ} {spatial : String} (h : c.Picks visited fits)
    (hi : c.auxSpatialLayer = i) (hj : c.auxTemporalLayer = 0) (temporals : List (String × Unit)) :
    (temporals.foldl (QualityManager.visitTemporal fits spatial) c).auxSpatialLayer = i ∧
      (temporals.foldl (QualityManager.visitTemporal fits spatial) c).auxTemporalLayer =
        temporals.length ∧
      (temporals.foldl (QualityManager.visitTemporal fits spatial) c).Picks (fun i' j s t =>
        visited i' j s t ∨ i' = i ∧ s = spatial ∧ temporals[j]? = some (t, ())) fits := by
  induction temporals using List.reverseRecOn with
  | nil => exact ⟨hi, hj, by simpa using h⟩
  | append_singleton temporals temporal ih =>
    obtain ⟨hspatial, htemporal, hpicks⟩ := ih
    rw [List.foldl_append, List.foldl_cons, List.foldl_nil]
    refine ⟨?_, ?_, hpicks.visitTemporal hspatial htemporal fun i' j' s t => ?_⟩
    · rw [QualityManager.visitTemporal]
      split_ifs <;> exact hspatial
    · rw [QualityManager.visitTemporal, List.length_append, List.length_singleton, Nat.cast_add,
        ← htemporal]
      split_ifs <;> rfl
    · rw [getElem?_concat_eq_some, Prod.ext_iff]
      simp only [and_true]
      tauto

/-- The loops pick one of the nodes that fit, by its position. -/
theorem picks_selection (layers : LayerNodes) :
    (selection fits layers).Picks (Visited layers.pairs) fits := by
  have key (nodes : List (String × StdMap String Unit)) :
      (nodes.foldl (visitSpatial fits) {}).auxSpatialLayer = nodes.length ∧
        (nodes.foldl (visitSpatial fits) {}).auxTemporalLayer = 0 ∧
        (nodes.foldl (visitSpatial fits) {}).Picks (Visited nodes) fits := by
    induction nodes using List.reverseRecOn with
    | nil =>
      refine ⟨rfl, rfl, rfl, rfl, ?_⟩
      rintro i j s t ⟨temporals, hnone, -⟩
      cases hnone
    | append_singleton nodes node ih =>
      obtain ⟨hspatial, htemporal, hpicks⟩ := ih
      obtain ⟨hspatial', -, hpicks'⟩ :=
        hpicks.foldl_visitTemporal hspatial htemporal node.2.pairs
      rw [List.foldl_append, List.foldl_cons, List.foldl_nil]
      refine ⟨?_, rfl, ?_⟩
      · rw [visitSpatial, List.length_append, List.length_singleton, Nat.cast_add, ← hspatial']
        rfl
      · have hvisited : Visited (nodes ++ [node]) = fun i j s t => Visited nodes i j s t ∨
            i = nodes.length ∧ s = node.1 ∧ node.2.pairs[j]? = some (t, ()) := by
          funext i j s t
          rw [Visited, Visited, eq_iff_iff]
          simp only [getElem?_concat_eq_some]
          constructor
          · rintro ⟨temporals, hnode | ⟨rfl, rfl⟩, ht⟩
            · exact .inl ⟨temporals, hnode, ht⟩
            · exact .inr ⟨rfl, rfl, ht⟩
          · rintro (⟨temporals, hnode, ht⟩ | ⟨rfl, rfl, ht⟩)
            · exact ⟨temporals, .inl hnode, ht⟩
            · exact ⟨node.2, .inr ⟨rfl, rfl⟩, ht⟩
        rw [hvisited]
        exact hpicks'
  exact (key layers.pairs).2.2

/-! ### When the choice is justified -/

/-- There is a node with the names. -/
def HasNode (layers : LayerNodes) (spatial temporal : String) : Prop :=
  ∃ temporals, layers.find spatial = some temporals ∧ temporals.find temporal = some ()

/-- The node is there and fits. -/
def State.Qualifies (s : State) (rate : String → String → UInt64) (tryHigherLayers : Bool)
    (spatial temporal : String) : Prop :=
  HasNode s.layers spatial temporal ∧
    Fits tryHigherLayers s.manager.currentEstimatedBitrate (rate spatial temporal)

/-- The base layer is chosen because no node qualifies, or the node that has the names of the
chosen layers qualifies. -/
def State.Justified (s : State) (rate : String → String → UInt64) (now : ℤ)
    (tryHigherLayers : Bool) : Prop :=
  let chosen := (selectLayer rate now tryHigherLayers s).manager
  chosen.spatialLayer = 0 ∧ chosen.temporalLayer = 0 ∧
      (∀ spatial temporal, ¬s.Qualifies rate tryHigherLayers spatial temporal) ∨
    s.Qualifies rate tryHigherLayers (toString chosen.spatialLayer) (toString chosen.temporalLayer)

/-- Every temporal node stands where its name and the name of its spatial node say. -/
def Positioned (layers : LayerNodes) : Prop :=
  ∀ i j spatial temporal, Visited layers.pairs i j spatial temporal →
    spatial = toString (i : ℤ) ∧ temporal = toString (j : ℤ)

variable {layers : LayerNodes} {spatial temporal : String} {s : State}
  {rate : String → String → UInt64} {now : ℤ} {tryHigherLayers : Bool}

/-- The nodes are the ones that are visited. -/
theorem hasNode_iff : HasNode layers spatial temporal ↔
    ∃ i j, Visited layers.pairs i j spatial temporal := by
  constructor
  · rintro ⟨temporals, hnode, ht⟩
    obtain ⟨i, hi⟩ := List.mem_iff_getElem?.mp (StdMap.mem_pairs_iff.mpr hnode)
    obtain ⟨j, hj⟩ := List.mem_iff_getElem?.mp (StdMap.mem_pairs_iff.mpr ht)
    exact ⟨i, j, temporals, hi, hj⟩
  · rintro ⟨i, j, temporals, hi, hj⟩
    exact ⟨temporals, StdMap.mem_pairs_iff.mp (List.mem_of_getElem? hi),
      StdMap.mem_pairs_iff.mp (List.mem_of_getElem? hj)⟩

/-- Layers that are not forced are set. -/
theorem manager_setLayers (hforced : s.manager.forcedLayers = false) (spatialLayer temporalLayer : ℤ) :
    (setSpatialLayer spatialLayer (setTemporalLayer temporalLayer s)).manager =
      { s.manager with spatialLayer := spatialLayer, temporalLayer := temporalLayer } := by
  simp [setSpatialLayer, setTemporalLayer, insertStat, hforced]

theorem manager_updateSlideshow (belowMinLayer : Bool) (s : State) :
    ∃ active, (updateSlideshow belowMinLayer tryHigherLayers s).manager =
      { s.manager with slideshowModeActive := active } := by
  rw [updateSlideshow]
  split_ifs <;> exact ⟨_, rfl⟩

theorem manager_setPadding (enabled : Bool) (s : State) :
    ∃ padding, (setPadding enabled s).manager = { s.manager with paddingEnabled := padding } := by
  rw [setPadding]
  split_ifs <;> exact ⟨_, rfl⟩

/-- A name stands at one position. -/
theorem index_unique {τ : Type*} (l : StdMap String τ) {i j : ℕ} {k : String} {v w : τ}
    (hi : l.pairs[i]? = some (k, v)) (hj : l.pairs[j]? = some (k, w)) : i = j := by
  obtain ⟨hi', hi⟩ := List.getElem?_eq_some_iff.mp hi
  obtain ⟨hj', hj⟩ := List.getElem?_eq_some_iff.mp hj
  have hsorted := List.pairwise_iff_getElem.mp l.sorted
  rcases Nat.lt_trichotomy i j with hlt | heq | hgt
  · have := hsorted i j hi' hj' hlt
    rw [hi, hj] at this
    exact absurd this (lt_irrefl _)
  · exact heq
  · have := hsorted j i hj' hi' hgt
    rw [hi, hj] at this
    exact absurd this (lt_irrefl _)

theorem visited_unique {i j i' j' : ℕ} (h : Visited layers.pairs i j spatial temporal)
    (h' : Visited layers.pairs i' j' spatial temporal) : i = i' ∧ j = j' := by
  obtain ⟨temporals, hi, hj⟩ := h
  obtain ⟨temporals', hi', hj'⟩ := h'
  obtain rfl := index_unique layers hi hi'
  obtain ⟨-, rfl⟩ := Prod.mk.inj (Option.some.inj (hi.symm.trans hi'))
  exact ⟨rfl, index_unique temporals hj hj'⟩

/-- The layers of the manager are the ones that the loops chose. -/
theorem selectLayer_layers (hforced : s.manager.forcedLayers = false) :
    let c := selection (fun spatial temporal =>
      Fits tryHigherLayers s.manager.currentEstimatedBitrate (rate spatial temporal)) s.layers
    (selectLayer rate now tryHigherLayers s).manager.spatialLayer = c.nextSpatialLayer ∧
      (selectLayer rate now tryHigherLayers s).manager.temporalLayer = c.nextTemporalLayer := by
  intro c
  obtain ⟨active, hslideshow⟩ := @manager_updateSlideshow tryHigherLayers c.belowMinLayer
    { s with manager := { s.manager with lastQualityCheck := now } }
  have hforced' : (updateSlideshow c.belowMinLayer tryHigherLayers
      { s with manager := { s.manager with lastQualityCheck := now } }).manager.forcedLayers =
        false := by
    rw [hslideshow]
    exact hforced
  rw [selectLayer]
  dsimp only
  split_ifs with hchange
  · obtain ⟨padding, hpadding⟩ := manager_setPadding _ _
    rw [hpadding, manager_setLayers hforced']
    exact ⟨rfl, rfl⟩
  · rw [not_or, not_not, not_not] at hchange
    exact ⟨hchange.2.symm, hchange.1.symm⟩

/-- For all rates and estimates the choice is justified, if and only if every temporal node
stands at the position that the names say. -/
theorem selectLayer_justified_iff (layers : LayerNodes) :
    (∀ (m : QualityManager) (rate : String → String → UInt64) (now : ℤ) (tryHigherLayers : Bool)
      (notifications : ℕ), m.forcedLayers = false →
        State.Justified ⟨m, layers, notifications⟩ rate now tryHigherLayers) ↔
      Positioned layers := by
  constructor
  · intro h i j spatial temporal hvisited
    -- no other node has a rate
    let rate : String → String → UInt64 := fun s t => if s = spatial ∧ t = temporal then 1 else 0
    have hfits (s t : String) : Fits false 2 (rate s t) ↔ s = spatial ∧ t = temporal := by
      by_cases hst : s = spatial ∧ t = temporal
      · rw [show rate s t = 1 from if_pos hst]
        exact iff_of_true (by decide +kernel) hst
      · rw [show rate s t = 0 from if_neg hst]
        exact iff_of_false (fun hf => hf.1 rfl) hst
    have hforced : ({ currentEstimatedBitrate := 2 } : QualityManager).forcedLayers = false := rfl
    have hjustified := h { currentEstimatedBitrate := 2 } rate 0 false 0 hforced
    obtain ⟨hspatial, htemporal⟩ := @selectLayer_layers
      ⟨{ currentEstimatedBitrate := 2 }, layers, 0⟩ rate 0 false hforced
    have hpicks := @picks_selection (fun s t => Fits false 2 (rate s t)) layers
    have hnode : Fits false 2 (rate spatial temporal) := (hfits _ _).mpr ⟨rfl, rfl⟩
    rcases hjustified with ⟨-, -, hnone⟩ | ⟨-, hchosen⟩
    · exact absurd ⟨hasNode_iff.mpr ⟨i, j, hvisited⟩, hnode⟩ (hnone spatial temporal)
    · obtain ⟨hs, ht⟩ := (hfits _ _).mp hchosen
      rw [hspatial] at hs
      rw [htemporal] at ht
      unfold Selection.Picks at hpicks
      split_ifs at hpicks
      · exact absurd (decide_eq_true hnode) (hpicks.2.2 i j spatial temporal hvisited)
      · obtain ⟨i', j', s, t, hvisited', hfit, hi, hj⟩ := hpicks
        obtain ⟨rfl, rfl⟩ := (hfits s t).mp (of_decide_eq_true hfit)
        obtain ⟨rfl, rfl⟩ := visited_unique hvisited hvisited'
        rw [← hi, ← hj]
        exact ⟨hs.symm, ht.symm⟩
  · intro hpositioned m rate now tryHigherLayers notifications hforced
    obtain ⟨hspatial, htemporal⟩ := @selectLayer_layers ⟨m, layers, notifications⟩ rate now
      tryHigherLayers hforced
    have hpicks := @picks_selection (fun spatial temporal =>
      Fits tryHigherLayers m.currentEstimatedBitrate (rate spatial temporal)) layers
    rw [State.Justified, hspatial, htemporal]
    unfold Selection.Picks at hpicks
    split_ifs at hpicks
    · obtain ⟨hs, ht, hnone⟩ := hpicks
      refine .inl ⟨hs, ht, fun spatial temporal hq => ?_⟩
      obtain ⟨i, j, hvisited⟩ := hasNode_iff.mp hq.1
      exact hnone i j spatial temporal hvisited (decide_eq_true hq.2)
    · obtain ⟨i, j, spatial, temporal, hvisited, hfits, hs, ht⟩ := hpicks
      obtain ⟨rfl, rfl⟩ := hpositioned i j spatial temporal hvisited
      rw [hs, ht]
      exact .inr ⟨hasNode_iff.mpr ⟨i, j, hvisited⟩, of_decide_eq_true hfits⟩

/-- Only the second stream is sent. -/
def secondStream : LayerNodes := StdMap.empty.assign "1" (StdMap.empty.assign "0" ())

/-- The only node counts as the base layer, of which there is no node. -/
theorem not_selectLayer_justified : ¬∀ (layers : LayerNodes) (m : QualityManager)
    (rate : String → String → UInt64) (now : ℤ) (tryHigherLayers : Bool) (notifications : ℕ),
      m.forcedLayers = false →
        State.Justified ⟨m, layers, notifications⟩ rate now tryHigherLayers := by
  intro h
  have hchosen : (selectLayer (fun _ _ => 100000) 0 false
      ⟨{ currentEstimatedBitrate := 1000000 }, secondStream, 0⟩).manager.spatialLayer = 0 := by
    decide +kernel
  have hfits : Fits false 1000000 100000 := by decide +kernel
  rcases h secondStream { currentEstimatedBitrate := 1000000 } (fun _ _ => 100000) 0 false 0 rfl with
    ⟨-, -, hnone⟩ | ⟨⟨temporals, hnode, -⟩, -⟩
  · exact hnone "1" "0" ⟨⟨StdMap.empty.assign "0" (), rfl, rfl⟩, hfits⟩
  · rw [hchosen] at hnode
    cases hnode

end QualityManager

end KkLicode.Rtp
