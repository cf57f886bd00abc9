/-
# Packets

`Packet` with `push` and `with`, `SPEC_FULL.md`, sections 3 and 4.4.

A packet is a stack of layers in wire order.  Any stack can be built, in any order
and with any layer any number of times.
-/

import RemoteMemory.Packet.Layer

namespace RemoteMemory

/-- A stack of layers, outermost first. -/
structure Packet where
  layers : List Layer := []
deriving DecidableEq

namespace Packet

/-- One more layer at the inner end. -/
def push (p : Packet) (layer : Layer) : Packet := ⟨p.layers ++ [layer]⟩

/-- The packet with one layer replaced; no change if there is no such layer. -/
def set (p : Packet) (index : Nat) (layer : Layer) : Packet := ⟨p.layers.set index layer⟩

/-- The outermost layer of a kind. -/
def find? (p : Packet) (kind : LayerKind) : Option Layer :=
  p.layers.find? fun layer => layer.kind == kind

/-- Number of layers. -/
def size (p : Packet) : Nat := p.layers.length

/-- Octets that the layers declare (`on_wire_len`). -/
def wireSize (p : Packet) : Nat := Layer.totalSize p.layers

/-- The packet as it goes on the wire (`to_bytes`): its layers one behind the other. -/
def octets (p : Packet) : Octets := p.layers.flatMap Layer.octets

@[simp] theorem layers_push (p : Packet) (l : Layer) : (p.push l).layers = p.layers ++ [l] := rfl

@[simp] theorem size_push (p : Packet) (l : Layer) : (p.push l).size = p.size + 1 := by
  simp [size]

@[simp] theorem octets_push (p : Packet) (l : Layer) :
    (p.push l).octets = p.octets ++ l.octets := by
  simp [octets]

end Packet

end RemoteMemory
