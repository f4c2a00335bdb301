import DarkbioWire.Framing.Stream

/-!
# Reads that fail and are tried again

The discard counter of `next_frame` lives in the call. A read that fails ends the call, so a caller that calls again gets
the frames of a receiver that forgets, at every failure, that it was throwing a frame away. Everything else of an
incomplete frame lives in the framer and is still there.
-/

namespace DarkbioWire.Framing

open Delimited

variable {cobs : Cobs} {maxFrameSize : Nat} {f f' : Framing cobs maxFrameSize}

/-- The states between the calls of a framer, whatever it reads, sends and returns. -/
inductive Reachable : Framing cobs maxFrameSize → Prop
  | new (reader : Reader) (writer : Writer) : Reachable (new reader writer)
  | nextFrame {f f' result} : Reachable f → f.nextFrame = (.ready result, f') → Reachable f'
  | nextPacket {f f' result} : Reachable f → f.nextPacket = (.ready result, f') → Reachable f'
  | sendPacket {f f' packet result} : Reachable f → f.sendPacket packet = (result, f') → Reachable f'
  | sendReset {f f' result} : Reachable f → f.sendReset = (result, f') → Reachable f'

theorem Reachable.wf (hcobs : cobs.Lawful) (h : f.Reachable) : f.Wf := by
  induction h with
  | new reader writer => exact new_wf reader writer
  | nextFrame _ hcall ih =>
      have hwf := (nextFrameLoop_spec ih.wfAt).2.1
      rw [show nextFrameLoop _ 0 = _ from hcall] at hwf
      exact hwf
  | nextPacket _ hcall ih =>
      have hwf := (nextPacketLoop_spec ih.wfAt).2.1
      rw [show nextPacketLoop _ 0 = _ from hcall] at hwf
      exact hwf
  | sendPacket _ hsend ih => exact (sendPacket_wire hcobs ih hsend).2.1
  | sendReset _ hsend ih => exact (sendReset_wire ih hsend).2.1

/-- Calling `next_frame` again and again, also after every `RecvFailed`, returns these frames until `Terminated`. -/
inductive Retries : Framing cobs maxFrameSize → List (List UInt8) → Prop
  | frame {f f' start stop frame frames} : f.nextFrame = (.ready (.ok (start, stop)), f') →
      slice? f'.readerBuffer start stop = some frame → Retries f' frames → Retries f (frame :: frames)
  | retry {f f' cause frames} : f.nextFrame = (.ready (.error (.recvFailed cause)), f') → Retries f' frames →
      Retries f frames
  | ended {f f' : Framing cobs maxFrameSize} : f.nextFrame = (.ready (.error .terminated), f') → Retries f []

theorem Retries.unique {frames frames' : List (List UInt8)} (h : Retries f frames) (h' : Retries f frames') :
    frames = frames' := by
  induction h generalizing frames' with
  | frame hcall hslice _ ih =>
      cases h' with
      | frame hcall' hslice' hrest =>
          rw [hcall'] at hcall
          obtain ⟨hrange, rfl⟩ := Prod.mk.inj hcall
          injection hrange with hrange
          injection hrange with hrange
          obtain ⟨rfl, rfl⟩ := Prod.mk.inj hrange
          rw [hslice'] at hslice
          rw [Option.some.inj hslice, ih hrest]
      | retry hcall' _ =>
          rw [hcall'] at hcall
          cases hcall
      | ended hcall' =>
          rw [hcall'] at hcall
          cases hcall
  | retry hcall _ ih =>
      cases h' with
      | frame hcall' _ _ =>
          rw [hcall'] at hcall
          cases hcall
      | retry hcall' hrest =>
          rw [hcall'] at hcall
          obtain ⟨_, rfl⟩ := Prod.mk.inj hcall
          exact ih hrest
      | ended hcall' =>
          rw [hcall'] at hcall
          cases hcall
  | ended hcall =>
      cases h' with
      | frame hcall' _ _ =>
          rw [hcall'] at hcall
          cases hcall
      | retry hcall' _ =>
          rw [hcall'] at hcall
          cases hcall
      | ended _ => rfl

/-- A reader that serves bytes, then fails and serves these segments, with a failure between every two of them, and ends. -/
inductive Served : Reader → List (List UInt8) → Prop
  | ended {reader rest} : Reader.stop reader = .data [] :: rest → Served reader []
  | failed {reader cause rest segments} : Reader.stop reader = .fail cause :: rest → Served rest segments →
      Served reader (Reader.bytes rest :: segments)

theorem Wf.retries_of_stop (hf : f.Wf) {segments : List (List UInt8)}
    (hend : ∀ g : Framing cobs maxFrameSize, g.Wf → g.reader.stop = f.reader.stop →
      next 0 maxFrameSize false g.unread = none → Retries g (forgetful 0 maxFrameSize g.unread segments)) :
    Retries f (forgetful 0 maxFrameSize f.unread segments) := by
  induction hlen : f.unread.length using Nat.strongRecOn generalizing f with
  | ind n ih =>
    subst hlen
    obtain ⟨hspec, hwf, _⟩ := nextFrameLoop_spec hf.wfAt
    rw [NextFrameSpec] at hspec
    rcases hnext : next 0 maxFrameSize (decide (0 < 0)) f.unread with _ | ⟨frame, rest⟩
    · exact hend f hf rfl hnext
    · rw [hnext] at hspec
      obtain ⟨start, stop, hpoll, hslice, hunread, hstop⟩ := hspec
      rw [forgetful_of_next hnext, ← hunread]
      refine .frame (Prod.ext hpoll rfl) hslice (ih _ ?_ hwf ?_ rfl)
      · change (f.nextFrameLoop 0).2.unread.length < _
        rw [hunread]
        exact (piece_of_next hnext).2.2
      · intro g hg hgstop
        exact hend g hg (hgstop.trans hstop)

/-- The calls return the frames of a receiver that forgets at every failure. -/
theorem Wf.retries (hf : f.Wf) {segments : List (List UInt8)} (hserved : Served f.reader segments) :
    Retries f (forgetful 0 maxFrameSize f.unread segments) := by
  induction segments generalizing f with
  | nil =>
      refine hf.retries_of_stop fun g hg hstop hnext => ?_
      have hspec := (nextFrameLoop_spec hg.wfAt).1
      rw [NextFrameSpec, show next 0 maxFrameSize (decide (0 < 0)) g.unread = none from hnext] at hspec
      obtain ⟨_, _, _, hend⟩ := hspec
      rw [forgetful, kept_of_none hnext]
      cases hserved with
      | ended hended =>
          rw [hstop, hended] at hend
          exact .ended (Prod.ext hend.1 rfl)
  | cons segment segments ih =>
      refine hf.retries_of_stop fun g hg hstop hnext => ?_
      obtain ⟨hspec, hwf, _⟩ := nextFrameLoop_spec hg.wfAt
      rw [NextFrameSpec, show next 0 maxFrameSize (decide (0 < 0)) g.unread = none from hnext] at hspec
      obtain ⟨discard, hresidue, _, hend⟩ := hspec
      rw [forgetful, kept_of_none hnext, List.nil_append]
      cases hserved with
      | @failed _ cause rest _ hfailed hrest =>
          rw [hstop, hfailed] at hend
          obtain ⟨hpoll, hreader⟩ := hend
          -- the next call starts without the discard counter, with what this one left in the buffer
          have hunread : (g.nextFrameLoop 0).2.unread = (residue 0 maxFrameSize false g.unread).2 ++ Reader.bytes rest := by
            rw [unread, hreader, show residue 0 maxFrameSize false g.unread = _ from hresidue]
          rw [← hunread]
          exact .retry (Prod.ext hpoll rfl) (ih hwf (hreader ▸ hrest))

/-! ### With and without the failures -/

/-- What these events serve before the first failure, and in the segments behind it. -/
def segments : List ReadEvent → List UInt8 × List (List UInt8)
  | [] => ([], [])
  | .data bytes :: events => (bytes ++ (segments events).1, (segments events).2)
  | .fail _ :: events => ([], (segments events).1 :: (segments events).2)

/-- The same reads without the failures. -/
def withoutFailures (events : List ReadEvent) : List ReadEvent :=
  events.filter fun event =>
    match event with
    | .data _ => true
    | .fail _ => false

theorem served_segments {events : List ReadEvent} (hevents : ∀ event ∈ events, event ≠ .data []) :
    Reader.bytes (events ++ [.data []]) = (segments events).1 ∧ Served (events ++ [.data []]) (segments events).2 := by
  induction events with
  | nil => exact ⟨rfl, .ended rfl⟩
  | cons event events ih =>
      obtain ⟨hbytes, hserved⟩ := ih fun event hevent => hevents event (List.mem_cons_of_mem _ hevent)
      cases event with
      | fail cause =>
          refine ⟨rfl, ?_⟩
          rw [segments, ← hbytes]
          exact .failed rfl hserved
      | data bytes =>
          rcases bytes with _ | ⟨b, bs⟩
          · exact absurd rfl (hevents _ List.mem_cons_self)
          · refine ⟨?_, ?_⟩
            · rw [segments, ← hbytes]
              rfl
            · rw [segments]
              generalize (segments events).2 = rest at hserved ⊢
              cases hserved with
              | ended hstop => exact .ended hstop
              | failed hstop hrest => exact .failed hstop hrest

theorem segments_withoutFailures (events : List ReadEvent) :
    segments (withoutFailures events) = ((segments events).1 ++ (segments events).2.flatten, []) := by
  induction events with
  | nil => rfl
  | cons event events ih =>
      cases event with
      | data bytes =>
          change segments (.data bytes :: withoutFailures events) = _
          rw [segments, ih, segments, List.append_assoc]
      | fail cause =>
          change segments (withoutFailures events) = _
          rw [ih, segments, List.nil_append, List.flatten_cons]

/-- The calls return the same frames over these reads as over the same without the failures. -/
def SameFrames (f : Framing cobs maxFrameSize) (events : List ReadEvent) : Prop :=
  ∃ frames, Retries ({ f with reader := events ++ [.data []] } : Framing cobs maxFrameSize) frames ∧
    Retries ({ f with reader := withoutFailures events ++ [.data []] } : Framing cobs maxFrameSize) frames

theorem Wf.sameFrames (hf : f.Wf) {events : List ReadEvent} (hevents : ∀ event ∈ events, event ≠ .data []) :
    SameFrames f events ↔ NoneLost 0 maxFrameSize (f.pending ++ (segments events).1) (segments events).2 := by
  obtain ⟨hbytes, hserved⟩ := served_segments hevents
  have hevents' : ∀ event ∈ withoutFailures events, event ≠ .data [] := fun event hevent =>
    hevents event (List.mem_of_mem_filter hevent)
  obtain ⟨hbytes', hserved'⟩ := served_segments hevents'
  rw [segments_withoutFailures] at hbytes' hserved'
  have hfailing := (hf.withReader (events ++ [.data []])).retries hserved
  have hclean := (hf.withReader (withoutFailures events ++ [.data []])).retries hserved'
  have hunread : ({ f with reader := events ++ [.data []] } : Framing cobs maxFrameSize).unread =
      f.pending ++ (segments events).1 := congrArg (f.pending ++ ·) hbytes
  have hunread' : ({ f with reader := withoutFailures events ++ [.data []] } : Framing cobs maxFrameSize).unread =
      f.pending ++ ((segments events).1 ++ (segments events).2.flatten) := congrArg (f.pending ++ ·) hbytes'
  rw [hunread] at hfailing
  rw [hunread', forgetful, ← List.append_assoc] at hclean
  rw [← forgetful_eq_iff]
  constructor
  · rintro ⟨frames, hframes, hframes'⟩
    rw [hfailing.unique hframes, hclean.unique hframes']
  · intro hsame
    exact ⟨_, hfailing, hsame ▸ hclean⟩

/-- Reads that fail and are tried again do not show in the frames exactly if none fails while a frame is thrown away whose
rest would pass for a frame. -/
theorem sameFrames_iff (hcobs : cobs.Lawful) (hf : f.Reachable) {events : List ReadEvent}
    (hevents : ∀ event ∈ events, event ≠ .data []) :
    SameFrames f events ↔ NoneLost 0 maxFrameSize (f.pending ++ (segments events).1) (segments events).2 :=
  (hf.wf hcobs).sameFrames hevents

/-- A read that fails in the middle of a frame. -/
theorem sameFrames_iff_reference :
    SameFrames (new [] ⟨[], []⟩ : Framing Cobs.stuffing 4) [.data [7, 0, 1], .fail (.other "timeout"), .data [2, 0]] := by
  refine (sameFrames_iff Cobs.stuffing_lawful (.new [] ⟨[], []⟩) (by decide)).mpr ⟨fun hexcess => ?_, trivial⟩
  have hresidue : residue (0 : UInt8) 4 false ([7] ++ 0 :: [1]) = (false, [1]) := by
    rw [residue_append_sep (by decide), residue_of_not_mem (by decide), if_neg (by decide)]
  exact absurd ((congrArg Prod.fst hresidue).symm.trans hexcess) (by decide)

/-- A read that fails behind one byte too many: the delimiter behind it is taken for an empty frame. -/
theorem delimiter_lost (cobs : Cobs) (maxFrameSize : Nat) (cause : IoError) :
    ¬ SameFrames (new [] ⟨[], []⟩ : Framing cobs maxFrameSize)
      [.data (List.replicate (maxFrameSize + 1) 1), .fail cause, .data [0]] := by
  rw [(new_wf [] ⟨[], []⟩).sameFrames (by simp)]
  intro hlost
  have hresidue : residue (0 : UInt8) maxFrameSize false (List.replicate (maxFrameSize + 1) 1 ++ []) = (true, []) := by
    rw [List.append_nil, residue_of_not_mem (by simp), if_pos (Or.inr (by simp))]
  rw [new_pending] at hlost
  exact absurd (hlost.1 (congrArg Prod.fst hresidue) [] [] rfl) (Nat.not_lt_zero _)

theorem sameFrames_iff_lost :
    ¬ SameFrames (new [] ⟨[], []⟩ : Framing Cobs.stuffing MAX_FRAME_SIZE)
      [.data (List.replicate (MAX_FRAME_SIZE + 1) 1), .fail (.other "timeout"), .data [0]] :=
  delimiter_lost Cobs.stuffing MAX_FRAME_SIZE (.other "timeout")

end DarkbioWire.Framing
