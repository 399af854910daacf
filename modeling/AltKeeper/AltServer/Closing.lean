import AltKeeper.AltServer.Framing

-- A stream that ends: the frames that are read in it, and how the reading stops.
namespace AltKeeper.AltServer

section Reading

-- One message read from a stream that has been sent whole and closed, and what is left of it.
def read_closed (s : Octets) : Except Str (Option Octets) × Octets :=
  let run := read_frame.exec (serving silent) s
  (run.2, s.drop (taken run.1))

-- The messages read one after the other, and how that stopped: at the end, or with an error.
def read_frames : Nat → Octets → Option (List Octets × Except Str Unit)
  | 0, _ => none
  | fuel + 1, s =>
      match read_closed s with
      | (.ok none, _) => some ([], .ok ())
      | (.error e, _) => some ([], .error e)
      | (.ok (some body), rest) =>
          (read_frames fuel rest).map fun (bodies, stop) => (body :: bodies, stop)

-- The bodies of the longest prefix of the stream that is made of complete frames.
structure Longest (s : Octets) (bodies : List Octets) (left : Octets) : Prop where
  whole : s = bodies.flatMap framed ++ left
  fits : ∀ body ∈ bodies, Fits body
  longest : ∀ bodies' left', s = bodies'.flatMap framed ++ left' → (∀ body ∈ bodies', Fits body) →
    bodies' <+: bodies

end Reading

section Frames

theorem framed_unique {body body' rest rest' : Octets} (hfits : Fits body) (hfits' : Fits body')
    (h : framed body ++ rest = framed body' ++ rest') : body = body' ∧ rest = rest' := by
  have hbody : body = body' :=
    FrameAt.unique (s := framed body ++ rest) (p := 0) ⟨hfits, rest, rfl⟩ ⟨hfits', rest', h⟩
  subst hbody
  exact ⟨rfl, List.append_cancel_left h⟩

theorem read_closed_framed {body : Octets} (hfits : Fits body) (rest : Octets) :
    read_closed (framed body ++ rest) = (.ok (some body), rest) := by
  have hrun := read_frame_runs (Prog.runs_exec (serving silent) read_frame (framed body ++ rest))
  obtain ⟨hgot, htaken⟩ := hrun.delivered hfits (serving_delivers silent read_frame _)
  rw [read_closed, hgot, htaken, List.drop_left]

theorem read_closed_short {s : Octets} (h : s.length < 4) : (read_closed s).1 = .ok none := by
  have hshort : ¬ 4 ≤ s.length := by omega
  have hanswer : serving silent s (.read_exact 4 IO_TIMEOUT) =
      (.failed .unexpectedEof s.length, []) := dif_neg hshort
  unfold read_closed read_frame
  rw [ask, Prog.perform_bind, Prog.exec, hanswer]
  rfl

-- A header is there, and no whole frame: the reading fails.
theorem read_closed_cut {s : Octets} (hfour : 4 ≤ s.length)
    (hnone : ∀ body rest, Fits body → s ≠ framed body ++ rest) :
    ∃ e, (read_closed s).1 = .error e := by
  have hreads := serving_took silent read_frame s
  have hdelivered := serving_delivers silent read_frame s
  have hrun := read_frame_runs (Prog.runs_exec (serving silent) read_frame s)
  rw [read_closed]
  generalize (read_frame.exec (serving silent) s).1 = trace at hreads hdelivered hrun
  generalize (read_frame.exec (serving silent) s).2 = got at hrun ⊢
  cases hrun with
  | @no_header r got cut none_got =>
      have hshort := Delivered.length_lt hdelivered.1 cut
      omega
  | @bad_length header e bad => exact ⟨e, rfl⟩
  | @no_body header count r e length positive bounded cut => exact ⟨e, rfl⟩
  | @frame header count body length positive bounded =>
      obtain ⟨⟨hfits, rest, heq⟩, -⟩ := FrameRead.frame_at (s := s) (p := 0)
        (.frame length positive bounded) hreads
      exact absurd heq (hnone _ rest hfits)

theorem longest_of_no_frame {bodies : List Octets} {left : Octets}
    (hfits : ∀ body ∈ bodies, Fits body)
    (hnone : ∀ body rest, Fits body → left ≠ framed body ++ rest) :
    Longest (bodies.flatMap framed ++ left) bodies left := by
  refine ⟨rfl, hfits, ?_⟩
  induction bodies with
  | nil =>
      intro bodies' left' heq hfits'
      cases bodies' with
      | nil => exact List.prefix_rfl
      | cons body bodies' =>
          rw [List.flatMap_nil, List.nil_append, List.flatMap_cons, List.append_assoc] at heq
          exact absurd heq (hnone body _ (hfits' body List.mem_cons_self))
  | cons body bodies ih =>
      intro bodies' left' heq hfits'
      cases bodies' with
      | nil => exact List.nil_prefix
      | cons body' bodies' =>
          rw [List.flatMap_cons, List.flatMap_cons, List.append_assoc, List.append_assoc] at heq
          obtain ⟨rfl, hrest⟩ := framed_unique (hfits body List.mem_cons_self)
            (hfits' body' List.mem_cons_self) heq
          rw [List.cons_prefix_cons]
          exact ⟨rfl, ih (fun b hb => hfits b (List.mem_cons_of_mem _ hb)) bodies' left' hrest
            fun b hb => hfits' b (List.mem_cons_of_mem _ hb)⟩

theorem exists_frames (s : Octets) : ∃ (bodies : List Octets) (left : Octets),
    s = bodies.flatMap framed ++ left ∧ (∀ body ∈ bodies, Fits body) ∧
      ∀ body rest, Fits body → left ≠ framed body ++ rest := by
  induction hn : s.length using Nat.strong_induction_on generalizing s with
  | _ n ih =>
      by_cases hframe : ∃ body rest, Fits body ∧ s = framed body ++ rest
      · obtain ⟨body, rest, hfits, rfl⟩ := hframe
        have hlen : rest.length < n := by
          rw [← hn, List.length_append, framed, List.length_append, Bytes.length_le32]
          omega
        obtain ⟨bodies, left, rfl, hall, hnone⟩ := ih rest.length hlen rest rfl
        refine ⟨body :: bodies, left, by rw [List.flatMap_cons, List.append_assoc], ?_, hnone⟩
        exact List.forall_mem_cons.mpr ⟨hfits, hall⟩
      · exact ⟨[], s, rfl, by simp, fun body rest hfits heq => hframe ⟨body, rest, hfits, heq⟩⟩

-- Fewer bytes than a header are taken for the end.
theorem read_frames_eq {bodies : List Octets} {left : Octets} (hfits : ∀ body ∈ bodies, Fits body)
    (hnone : ∀ body rest, Fits body → left ≠ framed body ++ rest) {fuel : Nat}
    (hfuel : (bodies.flatMap framed ++ left).length < fuel) :
    ∃ stop, read_frames fuel (bodies.flatMap framed ++ left) = some (bodies, stop) ∧
      (stop = .ok () ↔ left.length < 4) := by
  induction bodies generalizing fuel with
  | nil =>
      obtain ⟨fuel, rfl⟩ : ∃ n, fuel = n + 1 := ⟨fuel - 1, by omega⟩
      rw [List.flatMap_nil, List.nil_append, read_frames]
      by_cases hshort : left.length < 4
      · have hread := read_closed_short hshort
        generalize read_closed left = result at hread
        obtain ⟨got, rest⟩ := result
        subst hread
        exact ⟨.ok (), rfl, iff_of_true rfl hshort⟩
      · obtain ⟨e, hread⟩ := read_closed_cut (by omega) hnone
        generalize read_closed left = result at hread
        obtain ⟨got, rest⟩ := result
        subst hread
        exact ⟨.error e, rfl, iff_of_false (by simp) hshort⟩
  | cons body bodies ih =>
      obtain ⟨fuel, rfl⟩ : ∃ n, fuel = n + 1 := ⟨fuel - 1, by omega⟩
      rw [List.flatMap_cons, List.append_assoc] at hfuel ⊢
      have hlen : (bodies.flatMap framed ++ left).length < fuel := by
        rw [List.length_append, framed, List.length_append, Bytes.length_le32] at hfuel
        omega
      obtain ⟨stop, hrest, hstop⟩ := ih (fun b hb => hfits b (List.mem_cons_of_mem _ hb)) hlen
      refine ⟨stop, ?_, hstop⟩
      rw [read_frames, read_closed_framed (hfits body List.mem_cons_self)]
      simp only [hrest, Option.map_some]

end Frames

section Exactness

-- The frames are always read; the end is told from a cut unless the cut is inside a header.
theorem framing_exact_iff (s : Octets) : ∃ bodies left, Longest s bodies left ∧
    ∀ fuel, s.length < fuel → ∃ stop, read_frames fuel s = some (bodies, stop) ∧
      ((stop = .ok () ↔ left = []) ↔ ¬ (1 ≤ left.length ∧ left.length ≤ 3)) := by
  obtain ⟨bodies, left, rfl, hfits, hnone⟩ := exists_frames s
  refine ⟨bodies, left, longest_of_no_frame hfits hnone, fun fuel hfuel => ?_⟩
  obtain ⟨stop, hread, hstop⟩ := read_frames_eq hfits hnone hfuel
  refine ⟨stop, hread, ?_⟩
  rw [hstop, ← List.length_eq_zero_iff]
  omega

-- One byte, and the end of the stream.
theorem framing_not_exact : ¬ ∀ s : Octets, ∃ bodies left, Longest s bodies left ∧
    ∀ fuel, s.length < fuel → ∃ stop, read_frames fuel s = some (bodies, stop) ∧
      (stop = .ok () ↔ left = []) := by
  intro hall
  obtain ⟨bodies, left, hlongest, hread⟩ := hall [5]
  obtain ⟨stop, hstop, hiff⟩ := hread 2 (by decide)
  have hrun : read_frames 2 [5] = some ([], .ok ()) := by
    have hshort := read_closed_short (s := [5]) (by decide)
    rw [read_frames]
    generalize read_closed [5] = result at hshort
    obtain ⟨got, rest⟩ := result
    subst hshort
    rfl
  rw [hrun] at hstop
  obtain ⟨rfl, rfl⟩ := Prod.mk.inj (Option.some.inj hstop)
  have hwhole := hlongest.whole
  rw [hiff.mp rfl] at hwhole
  cases hwhole

end Exactness

end AltKeeper.AltServer
