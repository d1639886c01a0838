import PlayerInterface.IsoBmff.Bounds
import PlayerInterface.IsoBmff.RoundTrip

/-!
# Loops over stored boxes

A loop that comes to stored boxes passes them: what it returns is what the loop
behind them returns, with their objects in front. The memory below the pointer of a
loop is never written.
-/

namespace PlayerInterface.IsoBmff

open PlayerInterface.Core Reader

variable {L : BoxLoop} {cur ptr : Nat} {v : LoopVars} {h : Heap}

/-! ## Outcomes -/

/-- The loop returns, with a result that satisfies `P`. -/
def Outcome (L : BoxLoop) (cur ptr : Nat) (v : LoopVars) (h : Heap) (P : LoopResult → Prop) :
    Prop :=
  ∃ fuel r, boxLoop fuel L cur ptr v h = some r ∧ P r

theorem Outcome.done_iff {P : LoopResult → Prop} (hc : ¬ cur < L.limit) :
    Outcome L cur ptr v h P ↔ P ⟨[], v, h⟩ := by
  constructor
  · intro ho
    rcases ho with ⟨fuel, r, hr, hP⟩
    cases fuel with
    | zero => simp [boxLoop] at hr
    | succ fuel => rwa [boxLoop_done hr hc] at hP
  · intro hP
    exact ⟨1, ⟨[], v, h⟩, by rw [boxLoop, if_neg hc], hP⟩

/-- Fuel decides whether a box is constructed, not which one. -/
theorem constructBox_det {fuel fuel' hdr maxSz : Nat} {c : Bool} {tid : Int}
    {a b : IsoBmffBox × Heap} (hm : maxSz < 2 ^ 32)
    (ha : constructBox (boxLoop fuel) hdr maxSz c tid h = some a)
    (hb : constructBox (boxLoop fuel') hdr maxSz c tid h = some b) : a = b := by
  have ha' := constructBox_mono (boxLoop_mono (Nat.le_max_left fuel fuel')) hm ha
  have hb' := constructBox_mono (boxLoop_mono (Nat.le_max_right fuel fuel')) hm hb
  exact Option.some.inj (ha'.symm.trans hb')

/-- The results of the loop are those of the loop `len` bytes on, from these variables and
this heap, with these boxes in front. -/
def Passes (L : BoxLoop) (cur ptr : Nat) (v : LoopVars) (h : Heap) (len : Nat)
    (boxes : List IsoBmffBox) (v' : LoopVars) (h' : Heap) : Prop :=
  ∀ P, Outcome L cur ptr v h P ↔
    Outcome L (cur + len) (ptr + len) v' h' fun r => P { r with boxes := boxes ++ r.boxes }

theorem Passes.refl (L : BoxLoop) (cur ptr : Nat) (v : LoopVars) (h : Heap) :
    Passes L cur ptr v h 0 [] v h := fun _ => Iff.rfl

theorem Passes.trans {len len' : Nat} {boxes boxes' : List IsoBmffBox} {v' v'' : LoopVars}
    {h' h'' : Heap} (a : Passes L cur ptr v h len boxes v' h')
    (b : Passes L (cur + len) (ptr + len) v' h' len' boxes' v'' h'') :
    Passes L cur ptr v h (len + len') (boxes ++ boxes') v'' h'' := by
  intro P
  rw [a, b]
  simp only [List.append_assoc, Nat.add_assoc]

/-- The heap behind a box that was constructed and visited. -/
def BoxLoop.behind (L : BoxLoop) (cur ptr : Nat) (box : IsoBmffBox) (v : LoopVars) (h : Heap) :
    LoopVars × Heap :=
  let vh := L.visit cur ptr (box.setOffset cur) v h
  (vh.1, vh.2.move cur (cur + box.getSize))

theorem BoxLoop.behind_mem (L : BoxLoop) (cur ptr : Nat) (box : IsoBmffBox) (v : LoopVars)
    (h : Heap) : (L.behind cur ptr box v h).2.mem = L.patch cur ptr box.getType h.mem := by
  have hvisit := L.visit_mem cur ptr (box.setOffset cur) v h
  rwa [IsoBmffBox.getType_setOffset] at hvisit

/-- A loop passes a box that is constructed and ends inside its limit. -/
theorem Passes.box {fuel : Nat} {box : IsoBmffBox} {h₁ : Heap}
    (hb : constructBox (boxLoop fuel) ptr (L.room cur) L.correct L.childTrackId h = some (box, h₁))
    (hpos : 0 < box.getSize) (hfit : cur + box.getSize ≤ L.limit) (hlt : L.limit < 2 ^ 32) :
    Passes L cur ptr v h box.getSize [box.setOffset cur] (L.behind cur ptr box v h₁).1
      (L.behind cur ptr box v h₁).2 := by
  have hmod := L.modulus_ge
  have hnext : (cur + box.getSize) % L.modulus = cur + box.getSize := Nat.mod_eq_of_lt (by omega)
  have hoffset : cur % 2 ^ 32 = cur := Nat.mod_eq_of_lt (by omega)
  intro P
  have hsplit := @boxLoop_returns_iff L cur ptr v h P (show cur < L.limit by omega)
  rw [Outcome, hsplit]
  constructor
  · intro ho
    rcases ho with ⟨fuel', box', h₁', rest, hb', hrest, hP⟩
    have hsame := constructBox_det (L.room_lt cur) hb' hb
    obtain ⟨rfl, rfl⟩ := Prod.mk.inj hsame
    rw [hnext, hoffset] at hrest
    rw [hoffset] at hP
    exact ⟨fuel', rest, hrest, hP⟩
  · intro ho
    rcases ho with ⟨fuel', rest, hrest, hP⟩
    have hb' := constructBox_mono (boxLoop_mono (Nat.le_max_left fuel fuel')) (L.room_lt cur) hb
    refine ⟨max fuel fuel', box, h₁, rest, hb', ?_, ?_⟩
    · rw [hnext, hoffset]
      exact boxLoop_mono (Nat.le_max_right fuel fuel') hrest
    · rw [hoffset]
      exact hP

/-- A loop passes a stored box whose body is constructed. -/
theorem Passes.stored {fuel : Nat} {type : FourCC} {body : Bytes} {box : IsoBmffBox} {h₁ : Heap}
    (hb : Holds h.mem ptr (boxBytes type body)) (hL : L.correct = false)
    (hfit : cur + (8 + body.length) ≤ L.limit) (hlt : L.limit < 2 ^ 32)
    (hc : constructBody (boxLoop fuel) ⟨8 + body.length, type⟩ (ptr + 8) L.childTrackId
      (h.read readHeader ptr) = some (box, h₁)) :
    Passes L cur ptr v h (8 + body.length) [box.setOffset cur] (L.behind cur ptr box v h₁).1
      (L.behind cur ptr box v h₁).2 := by
  have hroom := L.room_eq hlt cur
  have hsize : box.getSize = 8 + body.length := (constructBody_head hc).1
  rw [← constructBox_stored hb (by omega) (L.room_lt cur), ← hL] at hc
  have hpass := Passes.box (v := v) hc (by omega) (by omega) hlt
  rwa [hsize] at hpass

/-! ## The memory below a loop -/

theorem BoxLoop.patch_below {type : FourCC} {m : Mem} {i : Nat} (hi : i < ptr + cur) :
    L.patch cur ptr type m i = m i := by
  cases L with
  | buffer n c tid => rfl
  | container sz tid => rfl
  | trak sz tid =>
      have hge := trackIdLoc_ge m (ptr + cur)
      unfold patch
      dsimp only
      split
      · exact Mem.write_outside (by omega)
      · rfl

/-- A loop that corrects no sizes writes nothing in front of its pointer. -/
theorem boxLoop_mem_below {fuel : Nat} {r : LoopResult} {i : Nat}
    (hr : boxLoop fuel L cur ptr v h = some r) (hL : L.correct = false) (hi : i < ptr) :
    r.heap.mem i = h.mem i := by
  induction fuel generalizing L cur ptr v h r with
  | zero => simp [boxLoop] at hr
  | succ fuel ih =>
      by_cases hc : cur < L.limit
      · rcases boxLoop_uncons hr hc with ⟨box, h₁, rest, hb, hrest, rfl⟩
        have hbody : h₁.mem i = h.mem i := by
          rw [hL] at hb
          have hhead : (headHeap h ptr (L.room cur) false).mem = h.mem := by
            rw [headHeap_mem h ptr (L.room cur) false L.childTrackId, head_uncorrected_mem]
          rw [← hhead]
          have hruns := (constructBox_head (L.room_lt cur) hb).2.2
          cases he : (head h.mem ptr (L.room cur) false L.childTrackId).entry with
          | plain =>
              rw [he] at hruns
              rw [show h₁ = _ from hruns]
          | leaf kind sz =>
              rw [he] at hruns
              rw [show h₁ = _ from hruns, Heap.read_mem]
          | nested L' =>
              rw [he] at hruns
              rcases hruns with ⟨r', hr', rfl⟩
              exact ih hr' (head_nested he).1 (by omega)
        have hvisit := L.visit_mem cur ptr (box.setOffset (cur % 2 ^ 32)) v h₁
        have hrest' := ih hrest hL (by omega)
        rw [Heap.move_mem, hvisit, L.patch_below (by omega), hbody] at hrest'
        exact hrest'
      · rw [boxLoop_done hr hc]

end PlayerInterface.IsoBmff
