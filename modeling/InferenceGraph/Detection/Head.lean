import InferenceGraph.Topology

set_option autoImplicit false

namespace InferenceGraph

structure DetectionHead where
  images : Nat
  priors : Nat
  classes : Nat
  keep : Nat
  deriving DecidableEq, Repr

namespace DetectionHead

def standard : DetectionHead := ⟨1, 256, 8, 32⟩

def single (size : TensorSize) : Layout := .unpadded .float32 .bfyx size

def locationLayout (h : DetectionHead) : Layout := single ⟨h.images, h.priors * 4, 1, 1⟩

def confidenceLayout (h : DetectionHead) : Layout :=
  single ⟨h.images, h.priors * h.classes, 1, 1⟩

def priorLayout (h : DetectionHead) : Layout := single ⟨1, 2, 1, h.priors * 4⟩

/-- The number of classes and of rows are kept as words. -/
def params (h : DetectionHead) : DetectionParameters :=
  { DetectionParameters.standard (UInt32.ofNat h.classes) (UInt32.ofNat h.keep) with
    boxCode := .centerSize
    overlapThreshold := 0.45
    candidates := 64
    scoreThreshold := 0.01 }

def locRaw : PrimitiveId := ⟨"loc_raw", by decide, by decide⟩
def locBias : PrimitiveId := ⟨"loc_bias", by decide, by decide⟩
def loc : PrimitiveId := ⟨"loc", by decide, by decide⟩
def confRaw : PrimitiveId := ⟨"conf_raw", by decide, by decide⟩
def conf : PrimitiveId := ⟨"conf", by decide, by decide⟩
def prior : PrimitiveId := ⟨"prior", by decide, by decide⟩
def detections : PrimitiveId := ⟨"detections", by decide, by decide⟩

variable {ε : Type} [Extension ε]

def input (id : PrimitiveId) (layout : Layout) : Primitive ε :=
  .ofParams id [] .inputLayout (InputLayout.mk layout)

def primitives (h : DetectionHead) : List (Primitive ε) :=
  [input locRaw h.locationLayout,
    input locBias h.locationLayout,
    .ofParams loc [locRaw] .eltwise (Eltwise.plain locBias .sum),
    input confRaw h.confidenceLayout,
    .ofParams conf [confRaw] .activation (Activation.mk .logistic 0 0),
    input prior h.priorLayout,
    .ofParams detections [loc, conf, prior] .detectionOutput h.params]

def topology (h : DetectionHead) : Topology ε where
  primitives := h.primitives
  ids_nodup := by
    show [locRaw, locBias, loc, confRaw, conf, prior, detections].Nodup
    decide

end DetectionHead

end InferenceGraph
