import Mathlib.Data.List.Basic

/-!
# Length-prefixed frames

A byte stream that is cut into frames, each a header that tells the length of the body behind it.
A format says what the front of an input is: a header, a malformed one, or too short to tell. What
has been told does not change when more of the stream arrives, so that the frames of a stream do
not depend on how it was cut.
-/

namespace LeanLibp2p.Lib

variable {β ε : Type}

/-- What the front of an input is. -/
inductive FrameHead (ε : Type) where
  | more
  | bad (e : ε)
  | header (headerLen bodyLen : Nat)
  deriving DecidableEq, Repr

/-- How the headers of frames look. -/
structure FrameFormat (β ε : Type) where
  head : List β → FrameHead ε
  head_append : ∀ input more, head input ≠ .more → head (input ++ more) = head input
  head_bounds : ∀ input headerLen bodyLen, head input = .header headerLen bodyLen →
    0 < headerLen ∧ headerLen ≤ input.length

/-- The first frame of an input. -/
inductive NextFrame (β ε : Type) where
  | incomplete
  | bad (e : ε)
  | frame (body rest : List β)
  deriving DecidableEq, Repr

/-- What is behind the last frame of an input: the front of one that is not complete, or a header
    that is malformed. -/
inductive FrameEnd (β ε : Type) where
  | incomplete (rest : List β)
  | bad (e : ε)
  deriving DecidableEq, Repr

namespace FrameFormat

variable (F : FrameFormat β ε)

/-- Take the first frame off an input. -/
def next (input : List β) : NextFrame β ε :=
  match F.head input with
  | .more => .incomplete
  | .bad e => .bad e
  | .header headerLen bodyLen =>
    if input.length - headerLen < bodyLen then .incomplete
    else .frame ((input.drop headerLen).take bodyLen) (input.drop (headerLen + bodyLen))

/-- The frames of an input, where `fuel` bounds their number. -/
def parseLoop : Nat → List β → List (List β) × FrameEnd β ε
  | 0, input => ([], .incomplete input)
  | fuel + 1, input =>
    match F.next input with
    | .incomplete => ([], .incomplete input)
    | .bad e => ([], .bad e)
    | .frame body rest => (body :: (parseLoop fuel rest).1, (parseLoop fuel rest).2)

/-- The frames of an input. -/
def parse (input : List β) : List (List β) × FrameEnd β ε := F.parseLoop (input.length + 1) input

/-- `bodies` are the first frames of `input`, and `rest` is what is behind them. -/
inductive Frames : List β → List (List β) → List β → Prop
  | nil (input : List β) : Frames input [] input
  | cons {input body rest bodies rest'} : F.next input = .frame body rest →
      Frames rest bodies rest' → Frames input (body :: bodies) rest'

variable {F} {input more rest body : List β} {bodies bodies' : List (List β)} {e : ε}

theorem head_of_bad (h : F.next input = .bad e) : F.head input = .bad e := by
  unfold next at h
  cases hhead : F.head input with
  | more => simp [hhead] at h
  | bad e' => simpa [hhead] using h
  | header headerLen bodyLen =>
    simp only [hhead] at h
    split at h <;> cases h

theorem head_of_frame (h : F.next input = .frame body rest) :
    ∃ headerLen, F.head input = .header headerLen body.length ∧ 0 < headerLen ∧
      headerLen + body.length ≤ input.length ∧ body = (input.drop headerLen).take body.length ∧
      rest = input.drop (headerLen + body.length) := by
  unfold next at h
  cases hhead : F.head input with
  | more => simp [hhead] at h
  | bad e' => simp [hhead] at h
  | header headerLen bodyLen =>
    have hbounds := F.head_bounds input headerLen bodyLen hhead
    simp only [hhead] at h
    split at h
    · cases h
    · rename_i hfits
      obtain ⟨rfl, rfl⟩ := NextFrame.frame.inj h
      have hlen : ((input.drop headerLen).take bodyLen).length = bodyLen := by
        rw [List.length_take, List.length_drop]
        omega
      rw [hlen]
      exact ⟨headerLen, rfl, hbounds.1, by omega, rfl, rfl⟩

/-- A frame takes at least one byte off its input. -/
theorem length_rest_lt (h : F.next input = .frame body rest) : rest.length < input.length := by
  obtain ⟨headerLen, -, hpos, hle, -, rfl⟩ := head_of_frame h
  rw [List.length_drop]
  omega

/-- More input does not change what was told of the first frame. -/
theorem next_append_bad (h : F.next input = .bad e) (more : List β) :
    F.next (input ++ more) = .bad e := by
  have hhead := head_of_bad h
  unfold next
  rw [F.head_append input more (by simp [hhead]), hhead]

theorem next_append_frame (h : F.next input = .frame body rest) (more : List β) :
    F.next (input ++ more) = .frame body (rest ++ more) := by
  obtain ⟨headerLen, hhead, -, hle, hbody, hrest⟩ := head_of_frame h
  unfold next
  rw [F.head_append input more (by simp [hhead]), hhead]
  dsimp only
  rw [List.length_append, if_neg (by omega), List.drop_append_of_le_length (by omega),
    List.drop_append_of_le_length (by omega), List.take_append_of_le_length
      (by rw [List.length_drop]; omega), ← hbody, ← hrest]

namespace Frames

theorem append_input (h : F.Frames input bodies rest) (more : List β) :
    F.Frames (input ++ more) bodies (rest ++ more) := by
  induction h with
  | nil input => exact .nil _
  | cons hnext _ ih => exact .cons (next_append_frame hnext more) ih

theorem trans {rest' : List β} (h : F.Frames input bodies rest)
    (h' : F.Frames rest bodies' rest') : F.Frames input (bodies ++ bodies') rest' := by
  induction h with
  | nil input => exact h'
  | cons hnext _ ih => exact .cons hnext (ih h')

/-- One more frame behind the first ones. -/
theorem snoc {rest' : List β} (h : F.Frames input bodies rest)
    (hnext : F.next rest = .frame body rest') : F.Frames input (bodies ++ [body]) rest' :=
  h.trans (.cons hnext (.nil _))

/-- What is behind the frames is the end of the input. -/
theorem suffix (h : F.Frames input bodies rest) : rest <:+ input := by
  induction h with
  | nil input => simp only [List.suffix_refl]
  | cons hnext _ ih =>
    obtain ⟨headerLen, -, -, -, -, rfl⟩ := head_of_frame hnext
    exact ih.trans (List.drop_suffix ..)

end Frames

/-- With room for every byte, the number of rounds does not matter. -/
theorem parseLoop_eq {fuel fuel' : Nat} (h : input.length < fuel) (h' : input.length < fuel') :
    F.parseLoop fuel input = F.parseLoop fuel' input := by
  induction fuel generalizing input fuel' with
  | zero => omega
  | succ fuel ih =>
    cases fuel' with
    | zero => omega
    | succ fuel' =>
      unfold parseLoop
      cases hnext : F.next input with
      | incomplete => rfl
      | bad e => rfl
      | frame body rest =>
        have hrest := length_rest_lt hnext
        dsimp only
        rw [ih (by omega) (by omega : rest.length < fuel')]

theorem parse_frame (h : F.next input = .frame body rest) :
    F.parse input = (body :: (F.parse rest).1, (F.parse rest).2) := by
  have hrest := length_rest_lt h
  unfold parse
  rw [parseLoop, h]
  dsimp only
  rw [parseLoop_eq hrest (Nat.lt_succ_self _)]

theorem parse_incomplete (h : F.next input = .incomplete) :
    F.parse input = ([], .incomplete input) := by
  unfold parse
  rw [parseLoop, h]

theorem parse_bad (h : F.next input = .bad e) : F.parse input = ([], .bad e) := by
  unfold parse
  rw [parseLoop, h]

/-- The frames of an input are the first ones, and those of what is behind them. -/
theorem Frames.parse (h : F.Frames input bodies rest) :
    F.parse input = (bodies ++ (F.parse rest).1, (F.parse rest).2) := by
  induction h with
  | nil input => rfl
  | cons hnext _ ih =>
    rw [parse_frame hnext, ih]
    rfl

/-- Encoded one after the other, frames are read back. -/
theorem frames_flatMap {encode : List β → List β} {bodies : List (List β)}
    (h : ∀ body ∈ bodies, ∀ rest, F.next (encode body ++ rest) = .frame body rest)
    (rest : List β) : F.Frames (bodies.flatMap encode ++ rest) bodies rest := by
  induction bodies with
  | nil => exact .nil _
  | cons body bodies ih =>
    rw [List.flatMap_cons, List.append_assoc]
    exact .cons (h body (by simp) _) (ih fun b hb => h b (by simp [hb]))

end FrameFormat

end LeanLibp2p.Lib
