import AltKeeper.AltServer.Panics

-- The stream of a client that keeps to the protocol, and what a connection takes of it.
namespace AltKeeper.AltServer

variable {ext : Ext} {ctx : Ctx}

def framed (body : Octets) : Octets := Bytes.le32 body.length ++ body

def Fits (body : Octets) : Prop := 0 < body.length ∧ body.length ≤ MAX_JSON

instance (body : Octets) : Decidable (Fits body) := inferInstanceAs (Decidable (_ ∧ _))

-- The request is followed by the bytes of an app.
def TakesApp (req : Value) : Prop :=
  identifier req = "PrepareAppRequest".toList ∧ content_size req ≠ 0 ∧ content_size req ≤ MAX_IPA

-- A request as a client sends it: its frame, and for an app the app and one more frame.
structure ClientRequest (ext : Ext) where
  body : Octets
  req : Value
  follows : Octets
  json : ext.from_slice body = some req
  fits : Fits body
  complete : (TakesApp req ∧ ∃ payload next, payload.length = (content_size req).toNat ∧ Fits next ∧
      follows = payload ++ framed next) ∨
    (¬ TakesApp req ∧ follows = [])

def ClientRequest.bytes (r : ClientRequest ext) : Octets := framed r.body ++ r.follows

-- A read gets its bytes when the stream has them, and fails only when it does not.
def Delivered (count : Nat) (s : Octets) : ReadOutcome count → Prop
  | .bytes bytes => bytes.1 = s.take count
  | .expired _ => s.length < count
  | .failed _ _ => s.length < count

section Frames

theorem i32_of_le32 {n : Nat} (h : n ≤ MAX_JSON) : i32_from_le_bytes (Bytes.le32 n) = n := by
  have hn : n < 2 ^ 31 := Nat.lt_of_le_of_lt h (by decide)
  have hle := Bytes.ofLe32_le32 n (by omega)
  simp only [i32_from_le_bytes, Bytes.le32, List.getD_cons_zero, List.getD_cons_succ, hle]
  rw [if_pos hn]

theorem Delivered.length_lt {count : Nat} {s : Octets} {r : ReadOutcome count}
    (h : Delivered count s r) (hcut : ∀ b, r ≠ .bytes b) : s.length < count := by
  cases r with
  | bytes b => exact absurd rfl (hcut b)
  | expired lost => exact h
  | failed kind lost => exact h

variable {trace : Prog.Trace Resp} {got : Except Str (Option Octets)}

-- A frame that is there is read, and nothing beyond it.
theorem FrameRead.delivered {body rest : Octets} (h : FrameRead trace got) (hfits : Fits body)
    (hreads : Reads Delivered (framed body ++ rest) trace) :
    got = .ok (some body) ∧ taken trace = (framed body).length := by
  have hheader : (framed body ++ rest).take 4 = Bytes.le32 body.length := rfl
  have hrest : (framed body ++ rest).drop 4 = body ++ rest := rfl
  cases h with
  | no_header cut none_got =>
      have hshort := Delivered.length_lt hreads.1 cut
      simp only [framed, List.length_append, Bytes.length_le32] at hshort
      omega
  | @bad_length header e bad =>
      have hlength : header.1 = Bytes.le32 body.length := hreads.1.trans hheader
      rw [hlength, i32_of_le32 hfits.2] at bad
      have hpos := hfits.1
      have hle := hfits.2
      omega
  | @no_body header count r e length positive bounded cut =>
      have hlength : header.1 = Bytes.le32 body.length := hreads.1.trans hheader
      rw [hlength, i32_of_le32 hfits.2] at length
      have hshort := Delivered.length_lt hreads.2.1 cut
      rw [taken_by, hrest, List.length_append] at hshort
      omega
  | @frame header count bytes length positive bounded =>
      have hlength : header.1 = Bytes.le32 body.length := hreads.1.trans hheader
      rw [hlength, i32_of_le32 hfits.2] at length
      obtain rfl : body.length = count := Int.ofNat.inj length
      have hbytes : bytes.1 = ((framed body ++ rest).drop 4).take body.length := hreads.2.1
      rw [hrest, List.take_left] at hbytes
      rw [hbytes]
      refine ⟨rfl, ?_⟩
      simp [taken, taken_by, framed]

-- At the end of the stream there is no frame.
theorem FrameRead.exhausted (h : FrameRead trace got) (hreads : Reads Delivered [] trace) :
    ∀ frame, got ≠ .ok (some frame) := by
  cases h with
  | no_header cut none_got => exact none_got
  | bad_length bad => exact nofun
  | no_body length positive bounded cut => exact nofun
  | @frame header count bytes length positive bounded =>
      have hnone : header.1 = [] := hreads.1
      have hfour := header.2
      rw [hnone] at hfour
      cases hfour

end Frames

section Dispatch

variable {events : Prog.Trace Resp} {reply : Option Value}

theorem app_events_no_reads {ipa : Octets} {result : Option (Except Int64 Unit)}
    (h : (with_phone ext ctx (install_app ext ipa)).Runs events result) : taken events = 0 := by
  have hinstall : (install_app ext ipa).Uses (·.reads = false) :=
    install_app_uses (P := fun c => c.reads = false) (fun _ => rfl) (fun _ => rfl) rfl ipa
  have huses : (with_phone ext ctx (install_app ext ipa)).Uses (·.reads = false) :=
    with_phone_uses (fun _ => Cmd.reads_of_around) hinstall
  exact taken_of_no_reads (huses.mem h)

-- A dispatch takes what follows the frame of its request.
theorem dispatch_taken (r : ClientRequest ext) (h : (dispatch ext ctx r.req).Runs events reply)
    {rest : Octets} (hreads : Reads Delivered (r.follows ++ rest) events) :
    taken events = r.follows.length := by
  by_cases asked : identifier r.req = "PrepareAppRequest".toList
  case neg =>
    rw [taken_of_no_reads (dispatch_off_stream h asked).no_reads]
    rcases r.complete with ⟨happ, -⟩ | ⟨-, hnone⟩
    · exact absurd happ.1 asked
    · rw [hnone]
      rfl
  case pos =>
    obtain ⟨result, run, -⟩ := dispatch_prepare h asked
    have hfollows (positive : content_size r.req ≠ 0) (bounded : content_size r.req ≤ MAX_IPA) :
        ∃ payload next, payload.length = (content_size r.req).toNat ∧ Fits next ∧
          r.follows = payload ++ framed next := by
      rcases r.complete with ⟨-, happ⟩ | ⟨hplain, -⟩
      · exact happ
      · exact absurd ⟨asked, positive, bounded⟩ hplain
    -- the frame after the app is there
    have hnext {payload next : Octets} {trace : Prog.Trace Resp} {got : Except Str (Option Octets)}
        (hlength : payload.length = (content_size r.req).toNat) (hfits : Fits next)
        (hread : FrameRead trace got)
        (hreads : Reads Delivered ((payload ++ framed next ++ rest).drop
          (content_size r.req).toNat) trace) :
        got = .ok (some next) ∧ taken trace = (framed next).length := by
      rw [← hlength, List.append_assoc, List.drop_left] at hreads
      exact hread.delivered hfits hreads
    cases receive_and_install_runs run with
    | refused size =>
        rcases r.complete with ⟨happ, -⟩ | ⟨-, hnone⟩
        · rcases size with hzero | hlarge
          · exact absurd hzero happ.2.1
          · exact absurd happ.2.2 (UInt64.not_le.mpr hlarge)
        · rw [hnone]
          rfl
    | cut positive bounded cut =>
        obtain ⟨payload, next, hlength, -, hr⟩ := hfollows positive bounded
        have hshort := Delivered.length_lt hreads.1 cut
        rw [hr, List.append_assoc, List.length_append, hlength] at hshort
        omega
    | no_frame positive bounded read none_got =>
        obtain ⟨payload, next, hlength, hfits, hr⟩ := hfollows positive bounded
        rw [hr] at hreads
        exact absurd (hnext hlength hfits read hreads.2).1 (none_got next)
    | unfit positive bounded read =>
        obtain ⟨payload, next, hlength, hfits, hr⟩ := hfollows positive bounded
        rw [hr] at hreads
        have htaken := (hnext hlength hfits read hreads.2).2
        simp only [taken, taken_by, htaken, hr, List.length_append, hlength]
    | whole positive bounded read run =>
        obtain ⟨payload, next, hlength, hfits, hr⟩ := hfollows positive bounded
        rw [hr, List.cons_append] at hreads
        have htaken := (hnext hlength hfits read ((reads_append _ _ _).mp hreads.2).1).2
        simp only [List.cons_append, taken, taken_by, taken_append, htaken,
          app_events_no_reads run, hr, List.length_append, hlength, Nat.add_zero]

end Dispatch

section Sample

-- A client that has sent all of its stream, and the rest of the world in one state.
def serving (outside : (c : Cmd) → Resp c) : Octets → (c : Cmd) → Resp c × Octets
  | s, .read_exact count _ =>
      if h : count ≤ s.length then (.bytes ⟨s.take count, List.length_take_of_le h⟩, s.drop count)
      else (.failed .unexpectedEof s.length, [])
  | s, c => (outside c, s)

theorem serving_reads {α : Type} {P : (count : Nat) → Octets → ReadOutcome count → Prop}
    (whole : ∀ count s h, P count s (.bytes ⟨s.take count, h⟩))
    (short : ∀ count s, s.length < count → P count s (.failed .unexpectedEof s.length))
    (outside : (c : Cmd) → Resp c) (p : Act α) (s : Octets) :
    Reads P s (p.exec (serving outside) s).1 := by
  induction p generalizing s with
  | ret a => trivial
  | call c k ih =>
      cases c with
      | read_exact count limit =>
          simp only [Prog.exec, serving]
          split
          · exact ⟨whole _ _ _, ih _ _⟩
          · refine ⟨short _ _ (Nat.lt_of_not_le ‹_›), ?_⟩
            rw [taken_by, List.drop_length]
            exact ih _ _
      | _ => exact ih _ _

theorem serving_delivers {α : Type} (outside : (c : Cmd) → Resp c) (p : Act α) (s : Octets) :
    Reads Delivered s (p.exec (serving outside) s).1 :=
  serving_reads (fun _ _ _ => rfl) (fun _ _ h => h) outside p s

end Sample

end AltKeeper.AltServer
