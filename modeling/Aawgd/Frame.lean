import Mathlib.Data.List.Basic
import Mathlib.Data.List.Infix
import Mathlib.Tactic.Linarith

/-! The wire format of the phone's stream: frames as values that cannot be
malformed, and the cutting of a byte string into complete frames. -/
namespace Aawgd

/-- The size of the thread's buffer, and so of the largest frame. -/
def maxFrame : Nat := 16384

/-- One frame. The flags say whether four extra bytes stand before the payload. -/
structure Frame where
  channel : UInt8
  flags : UInt8
  extra : List UInt8
  payload : List UInt8
  extra_length : extra.length = if flags &&& 3 = 1 then 4 else 0
  fits : 4 + extra.length + payload.length ≤ maxFrame

namespace Frame

/-- Channel, flags, the payload length in big-endian order, then the rest. -/
def bytes (f : Frame) : List UInt8 :=
  f.channel :: f.flags :: UInt8.ofNat (f.payload.length / 256) ::
    UInt8.ofNat (f.payload.length % 256) :: (f.extra ++ f.payload)

theorem bytes_length (f : Frame) : f.bytes.length = 4 + f.extra.length + f.payload.length := by
  simp [bytes]
  omega

end Frame

/-- The size of a whole frame as declared by its first four bytes. -/
def frameLength : List UInt8 → Nat
  | _ :: flags :: high :: low :: _ =>
    4 + (if flags &&& 3 = 1 then 4 else 0) + (256 * high.toNat + low.toNat)
  | _ => 0

theorem Frame.frameLength_bytes (f : Frame) (rest : List UInt8) :
    frameLength (f.bytes ++ rest) = f.bytes.length := by
  have hfits := f.fits
  have hhigh : f.payload.length / 256 < 256 := by unfold maxFrame at hfits; omega
  have hlow : f.payload.length % 256 < 256 := Nat.mod_lt _ (by omega)
  have hdiv := Nat.div_add_mod f.payload.length 256
  rw [bytes_length, f.extra_length]
  simp only [bytes, List.cons_append, frameLength, UInt8.toNat_ofNat', Nat.reducePow,
    Nat.mod_eq_of_lt hhigh, Nat.mod_eq_of_lt hlow]
  omega

/-- A byte string of the declared size is a frame. -/
theorem exists_frame (b : List UInt8) (h4 : 0 < frameLength b) (hlen : b.length = frameLength b)
    (hmax : b.length ≤ maxFrame) : ∃ f : Frame, f.bytes = b := by
  match b with
  | [] | [_] | [_, _] | [_, _, _] => simp [frameLength] at h4
  | channel :: flags :: high :: low :: rest =>
    have hh := high.toNat_lt
    have hl := low.toNat_lt
    simp only [frameLength, List.length_cons] at hlen
    simp only [List.length_cons] at hmax
    have hrest : rest.length = (if flags &&& 3 = 1 then 4 else 0) +
        (256 * high.toNat + low.toNat) := by omega
    let extra := if flags &&& 3 = 1 then 4 else 0
    have hpay : (rest.drop extra).length = 256 * high.toNat + low.toNat := by
      simp only [List.length_drop, hrest, extra]
      omega
    have hext : (rest.take extra).length = extra := by
      simp only [List.length_take, hrest, extra]
      omega
    refine ⟨⟨channel, flags, rest.take extra, rest.drop extra, hext, ?_⟩, ?_⟩
    · rw [hext, hpay]
      simp only [extra]
      omega
    · have hdiv : (256 * high.toNat + low.toNat) / 256 = high.toNat := by omega
      have hmod : (256 * high.toNat + low.toNat) % 256 = low.toNat := by omega
      simp only [Frame.bytes, hpay, hdiv, hmod, UInt8.ofNat_toNat, List.take_append_drop]

/-- The first complete frame of a byte string, and what follows it. -/
def nextFrame (s : List UInt8) : Option (List UInt8 × List UInt8) :=
  if 0 < frameLength s ∧ frameLength s ≤ maxFrame ∧ frameLength s ≤ s.length then
    some (s.take (frameLength s), s.drop (frameLength s))
  else none

theorem frameLength_pos {s : List UInt8} (h : 0 < frameLength s) : 4 ≤ frameLength s := by
  unfold frameLength at h ⊢
  split at h
  · omega
  · simp at h

/-- The declared size is read off the first four bytes only. -/
theorem frameLength_take (s : List UInt8) (n : Nat) (h : 4 ≤ n) :
    frameLength (s.take n) = frameLength s := by
  match s, n, h with
  | [], _, _ => simp
  | [_], n+4, _ => rfl
  | [_, _], n+4, _ => rfl
  | [_, _, _], n+4, _ => rfl
  | _ :: _ :: _ :: _ :: _, n+4, _ => rfl

theorem nextFrame_eq_some {s b rest : List UInt8} (h : nextFrame s = some (b, rest)) :
    frameLength s ≤ maxFrame ∧ frameLength s ≤ s.length ∧
      b = s.take (frameLength s) ∧ rest = s.drop (frameLength s) := by
  unfold nextFrame at h
  split at h
  next hc =>
    simp only [Option.some.injEq, Prod.mk.injEq] at h
    exact ⟨hc.2.1, hc.2.2, h.1.symm, h.2.symm⟩
  next => simp at h

theorem nextFrame_of_le {s : List UInt8} (hpos : 0 < frameLength s) (hmax : frameLength s ≤ maxFrame)
    (hlen : frameLength s ≤ s.length) :
    nextFrame s = some (s.take (frameLength s), s.drop (frameLength s)) :=
  if_pos ⟨hpos, hmax, hlen⟩

theorem nextFrame_spec {s b rest : List UInt8} (h : nextFrame s = some (b, rest)) :
    s = b ++ rest ∧ 4 ≤ b.length ∧ b.length = frameLength b ∧ b.length ≤ maxFrame := by
  unfold nextFrame at h
  split at h
  next hc =>
    obtain ⟨hpos, hmax, hlen⟩ := hc
    simp only [Option.some.injEq, Prod.mk.injEq] at h
    obtain ⟨rfl, rfl⟩ := h
    have h4 := frameLength_pos hpos
    have hb : (s.take (frameLength s)).length = frameLength s := by
      simp only [List.length_take]
      omega
    exact ⟨(List.take_append_drop _ _).symm, by omega, by rw [hb, frameLength_take s _ h4],
      by omega⟩
  next => simp at h

theorem nextFrame_bytes (f : Frame) (rest : List UInt8) :
    nextFrame (f.bytes ++ rest) = some (f.bytes, rest) := by
  have hlen := f.bytes_length
  have hfits := f.fits
  have hc : 0 < frameLength (f.bytes ++ rest) ∧ frameLength (f.bytes ++ rest) ≤ maxFrame ∧
      frameLength (f.bytes ++ rest) ≤ (f.bytes ++ rest).length := by
    rw [f.frameLength_bytes, List.length_append]
    omega
  rw [nextFrame, if_pos hc, f.frameLength_bytes]
  simp

/-- All complete frames from the start of a byte string on. -/
def cutFrames (s : List UInt8) : List (List UInt8) :=
  match _h : nextFrame s with
  | none => []
  | some (b, rest) => b :: cutFrames rest
termination_by s.length
decreasing_by
  obtain ⟨rfl, h4, -⟩ := nextFrame_spec _h
  simp only [List.length_append]
  omega

theorem cutFrames_none {s : List UInt8} (h : nextFrame s = none) : cutFrames s = [] := by
  rw [cutFrames]
  split <;> simp_all

theorem cutFrames_some {s b rest : List UInt8} (h : nextFrame s = some (b, rest)) :
    cutFrames s = b :: cutFrames rest := by
  rw [cutFrames]
  split <;> simp_all

theorem cutFrames_spec (s : List UInt8) : (cutFrames s).flatten <+: s ∧
    ∀ b ∈ cutFrames s, ∃ f : Frame, f.bytes = b := by
  induction s using cutFrames.induct with
  | case1 s h => simp [cutFrames_none h]
  | case2 s b rest h ih =>
    obtain ⟨hs, h4, hlen, hmax⟩ := nextFrame_spec h
    rw [cutFrames_some h, List.flatten_cons]
    constructor
    · conv_rhs => rw [hs]
      exact (List.prefix_append_right_inj b).mpr ih.1
    · intro b' hb'
      cases List.mem_cons.mp hb' with
      | inl he => exact he ▸ exists_frame b (by omega) hlen hmax
      | inr ht => exact ih.2 b' ht

/-- Cutting the concatenation of frames gives the frames back. -/
theorem cutFrames_stream (fs : List Frame) :
    cutFrames (fs.flatMap Frame.bytes) = fs.map Frame.bytes := by
  induction fs with
  | nil => exact cutFrames_none (by simp [nextFrame, frameLength])
  | cons f fs ih =>
    rw [List.flatMap_cons, cutFrames_some (nextFrame_bytes f _), ih, List.map_cons]

end Aawgd
