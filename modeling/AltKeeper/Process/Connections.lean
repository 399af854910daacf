import AltKeeper.AltServer.Operations

-- A connection keeps to what its thread may do.
namespace AltKeeper

-- A connection between two uses of the phone.
structure Local.Free (s : Local) : Prop where
  is_conn : s.is_conn = true
  guard : s.guard = none
  work : s.work = false
  link : s.link = false

-- Nothing has changed but what was seen on the phone.
structure Local.Saw (s s' : Local) : Prop where
  is_conn : s'.is_conn = s.is_conn
  guard : s'.guard = s.guard
  work : s'.work = s.work
  link : s'.link = s.link
  request : s'.request = s.request

theorem Local.Saw.refl (s : Local) : s.Saw s := ⟨rfl, rfl, rfl, rfl, rfl⟩

theorem Local.Free.of_saw {s s' : Local} (hs : s.Free) (h : s.Saw s') : s'.Free :=
  ⟨h.is_conn.trans hs.is_conn, h.guard.trans hs.guard, h.work.trans hs.work, h.link.trans hs.link⟩

-- Giving back the link and the lock.
theorem Local.Saw.closed {s t : Local} (hs : s.Free)
    (h : Local.Saw { s with work := true, link := true } t) :
    s.Saw { t with work := false, link := false } :=
  ⟨h.is_conn, h.guard, hs.work.symm, hs.link.symm, h.request⟩

namespace AltServer

variable {ext : Ext}

section Plain

variable {α : Type} {p : Act α} {s : Local}

theorem plain_same (hp : p.Uses Plain) : p.wp ((conduct ext).restrict InBody) (fun _ s' => s' = s) s :=
  plain_conducts Quiet.in_body hp

theorem plain_saw (hp : p.Uses Plain) : p.wp ((conduct ext).restrict InBody) (fun _ s' => s.Saw s') s := by
  apply Prog.wp_mono (plain_same hp)
  rintro - _ rfl
  exact Local.Saw.refl _

theorem read_frame_conducts :
    read_frame.wp ((conduct ext).restrict InBody) (fun _ s' => s' = s) s :=
  plain_same (read_frame_uses (P := Plain) fun _ _ => rfl)

theorem send_conducts (v : Value) :
    (send ext v).wp ((conduct ext).restrict InBody) (fun _ s' => s' = s) s :=
  plain_same ⟨rfl, fun _ => trivial⟩

end Plain

section Operations

variable (ctx : Ctx) {s : Local}

-- The lock is held around the link, whatever is done with it.
theorem with_phone_conducts {α : Type} {op : Act (Option (Except Int64 α))} (hs : s.Free)
    (hop : op.wp ((conduct ext).restrict InBody) (fun _ s' => Local.Saw { s with work := true, link := true } s')
      { s with work := true, link := true }) :
    (with_phone ext ctx op).wp ((conduct ext).restrict InBody) (fun _ s' => s.Saw s') s := by
  -- a connection says nothing while it looks for the phone
  have htalks : Talks ext InBody (fun t => t = { s with work := true, link := t.link })
      fun _ => return () := by
    refine ⟨?_, ?_, ?_⟩
    · rintro t b ht
      rw [ht]
    · rintro t ht
      rw [ht]
      simp [Local.MayConnect, hs.is_conn]
    · rintro line t ht
      exact ⟨ht, rfl⟩
  refine conducts_ask ⟨hs.is_conn, hs.work⟩ rfl fun _ => ?_
  unfold phone_link
  rw [bind_assoc]
  have hstart : s.advance .lock_work () = { s with work := true, link := false } := by
    simp [Local.advance, hs.link]
  rw [hstart]
  apply Prog.wp_seq (connect_auto_talks Quiet.in_body htalks ctx.phone rfl rfl)
  rintro r t ⟨ht, hlink⟩
  cases r with
  | error e =>
      rw [hlink] at ht
      subst ht
      exact conducts_ask rfl rfl fun _ => ⟨rfl, rfl, hs.work.symm, hs.link.symm, rfl⟩
  | ok addr =>
      rw [hlink] at ht
      subst ht
      apply Prog.wp_seq hop
      rintro result t ht
      refine conducts_ask trivial rfl fun _ => conducts_ask rfl rfl fun _ => ?_
      show s.Saw { t with work := false, link := false }
      exact ht.closed hs

theorem install_profiles_conducts (req : Value) (hs : s.Free) :
    (install_profiles ext ctx req).wp ((conduct ext).restrict InBody) (fun _ s' => s.Saw s') s := by
  unfold install_profiles
  split
  · exact Local.Saw.refl s
  · rename_i blobs _
    have hall : (install_all ext ctx blobs).wp ((conduct ext).restrict InBody) (fun _ s' => s.Saw s') s := by
      unfold install_all
      split
      · exact Local.Saw.refl s
      · exact with_phone_conducts ctx hs (plain_saw (install_blobs_uses blobs fun _ => rfl))
    apply Prog.wp_seq hall
    rintro (_ | _ | _) s' hs' <;> exact hs'

-- Each removal is one the request asks for, of a profile just read.
theorem remove_matching_conducts {req : Value} (hreq : s.request = some req)
    (hid : identifier req = "RemoveProvisioningProfilesRequest".toList)
    (raw : List Octets) (hraw : ∀ x ∈ raw, x ∈ s.seen) :
    (remove_matching ext (wanted_bundles ext req) raw).wp ((conduct ext).restrict InBody)
      (fun _ s' => s' = s) s := by
  induction raw with
  | nil => rfl
  | cons x raw ih =>
      have ih := ih fun y hy => hraw y (List.mem_cons_of_mem x hy)
      unfold remove_matching
      split
      · rfl
      · exact ih
      · rename_i p hp
        have hone : (remove_if_wanted ext (wanted_bundles ext req) p).wp
            ((conduct ext).restrict InBody) (fun _ s' => s' = s) s := by
          unfold remove_if_wanted
          split
          · rename_i hmatch
            have hmem : x ∈ s.seen := hraw x List.mem_cons_self
            exact conducts_ask ⟨req, x, p, hreq, hmem, hp, rfl, hid, hmatch⟩ rfl fun _ => rfl
          · rfl
        apply Prog.wp_seq hone
        rintro - _ rfl
        exact ih

theorem remove_profiles_conducts {req : Value} (hs : s.Free) (hreq : s.request = some req)
    (hid : identifier req = "RemoveProvisioningProfilesRequest".toList) :
    (remove_profiles ext ctx req).wp ((conduct ext).restrict InBody) (fun _ s' => s.Saw s') s := by
  have hall : (remove_all ext ctx (wanted_bundles ext req)).wp ((conduct ext).restrict InBody)
      (fun _ s' => s.Saw s') s := by
    unfold remove_all
    split
    · exact Local.Saw.refl s
    · apply with_phone_conducts ctx hs
      refine conducts_ask trivial rfl fun r => ?_
      cases r with
      | error e => exact Local.Saw.refl _
      | ok raw =>
          refine Prog.wp_mono (remove_matching_conducts
            (s := { s with work := true, link := true, seen := raw }) hreq hid raw fun _ hx => hx) ?_
          rintro _ _ rfl
          exact ⟨rfl, rfl, rfl, rfl, rfl⟩
  apply Prog.wp_seq hall
  rintro (_ | _ | _) s' hs' <;> exact hs'

theorem remove_app_conducts (req : Value) (hs : s.Free) :
    (remove_app ext ctx req).wp ((conduct ext).restrict InBody) (fun _ s' => s.Saw s') s := by
  unfold remove_app
  split
  · exact Local.Saw.refl s
  · apply Prog.wp_seq (with_phone_conducts ctx hs (plain_saw (uninstall_uses rfl rfl)))
    rintro (_ | _ | _) s' hs' <;> exact hs'

theorem receive_and_install_conducts (req : Value) (hs : s.Free) :
    (receive_and_install ext ctx req).wp ((conduct ext).restrict InBody) (fun _ s' => s.Saw s') s := by
  unfold receive_and_install
  dsimp only
  split
  · exact Local.Saw.refl s
  · refine conducts_ask trivial rfl fun r => ?_
    cases r with
    | expired _ => exact Local.Saw.refl s
    | failed _ _ => exact Local.Saw.refl s
    | bytes ipa =>
        apply Prog.wp_seq read_frame_conducts
        rintro r _ rfl
        rcases r with _ | _ | frame
        · exact Local.Saw.refl _
        · exact Local.Saw.refl _
        · dsimp only
          split
          · exact Local.Saw.refl _
          · split
            · exact Local.Saw.refl _
            · exact with_phone_conducts ctx hs
                (plain_saw (install_app_uses (P := Plain) (fun _ => rfl) (fun _ => rfl) rfl ipa.1))

theorem dispatch_conducts {req : Value} (hs : s.Free) (hreq : s.request = some req) :
    (dispatch ext ctx req).wp ((conduct ext).restrict InBody) (fun _ s' => s.Saw s') s := by
  unfold dispatch
  dsimp only
  split
  · apply plain_saw
    exact Prog.Uses.bind (anisette_uses rfl rfl rfl (fun _ => rfl) rfl) fun _ => trivial
  split
  · exact install_profiles_conducts ctx req hs
  split
  case isTrue hid => exact remove_profiles_conducts ctx hs hreq hid
  split
  · exact remove_app_conducts ctx req hs
  split
  · exact Local.Saw.refl s
  split
  · apply Prog.wp_seq (receive_and_install_conducts ctx req hs)
    rintro (_ | _ | _) s' hs' <;> exact hs'
  · exact Local.Saw.refl s

end Operations

theorem handle_connection_conducts (ctx : Ctx) (fuel : Nat) {s : Local} (hs : s.Free) :
    (handle_connection ext ctx fuel).wp ((conduct ext).restrict InBody) (fun _ s' => s'.Free) s := by
  induction fuel generalizing s with
  | zero => exact hs
  | succ fuel ih =>
      unfold handle_connection
      apply Prog.wp_seq read_frame_conducts
      rintro r s rfl
      rcases r with _ | _ | frame
      · exact hs
      · exact hs
      · dsimp only
        split
        · apply Prog.wp_seq (send_conducts _)
          rintro _ _ rfl
          exact hs
        · rename_i req _
          refine conducts_ask trivial rfl fun _ => ?_
          have hfree : Local.Free { s with request := some req } :=
            ⟨hs.is_conn, hs.guard, hs.work, hs.link⟩
          apply Prog.wp_seq (dispatch_conducts ctx hfree rfl)
          rintro reply s₁ hs₁
          have hs₁ := hfree.of_saw hs₁
          cases reply with
          | none => exact hs₁
          | some reply =>
              apply Prog.wp_seq (send_conducts reply)
              rintro sent _ rfl
              cases sent with
              | error e => exact hs₁
              | ok _ => exact ih hs₁

end AltServer

-- A connection ends with nothing in its hands, wherever a panic strikes.
theorem connection_thread_conducts {ext : Ext} (ctx : AltServer.Ctx) (fuel : Nat) {s : Local}
    (hs : s.Free) :
    (connection_thread ext ctx fuel).wp (conduct ext) (fun _ s' => s'.Idle) s := by
  apply Prog.wp_of_restrict (Q := InBody)
  have hkeep : ∀ (t : Local) (c : Cmd) (r : Resp c) (t' : Local), t.guard = none →
      ((conduct ext).restrict InBody).allows t c → ((conduct ext).restrict InBody).step t c r t' →
      t'.guard = none := by
    rintro t c r t' ht ⟨-, hc⟩ rfl
    simpa [ht] using advance_guard_isSome (s := t) (r := r) hc
  have hbody := Prog.wp_interruptible (P := (conduct ext).restrict InBody) (c := .panicked) id
    (fun t _ => ⟨⟨trivial, rfl⟩, fun r t' h => ⟨h, fun _ => trivial⟩⟩) hkeep hs.guard
    (AltServer.handle_connection_conducts ctx fuel hs)
  apply Prog.wp_seq hbody
  rintro _ t ⟨ht, -⟩
  exact conducts_ask trivial rfl fun _ => ⟨ht, rfl, rfl⟩

end AltKeeper
