import FieldCamera.Upload.Post
import Mathlib.Order.Nat
/-!
# The clock of a post

No operation on a stream ends before it starts, if it is given time at all, and so no post does
(`le_now_post`).
-/

namespace FieldCamera.Link

variable {deadline now : Nat}

theorem Stream.le_now_readArrivals {cap flushes : Nat} {staysOpen : Bool}
    {arrivals : List Arrival} {since : Option Nat} (hd : now ≤ deadline) :
    now ≤ (readArrivals cap flushes staysOpen deadline arrivals since now).2.1 := by
  fun_induction readArrivals cap flushes staysOpen deadline arrivals since now with
  | case1 | case7 | case9 => exact hd
  | case2 | case4 | case5 | case10 => exact Nat.le_refl _
  | case3 rest since now ih | case8 count rest since now hc ih => exact ih hd
  | case6 ms rest since now start hs ih =>
      exact (Nat.le_max_left _ _).trans (ih (Nat.max_le.2 ⟨hd, hs⟩))

theorem Uptake.le_snd_settle (hd : now ≤ deadline) (uptake : Uptake) :
    now ≤ (uptake.settle deadline now).2 := by
  cases uptake with
  | takes ms count | fault ms reason =>
      rw [settle]
      split
      · exact Nat.le_add_right now ms
      · exact hd
  | stall => exact hd

theorem Stream.le_now_write (data : List UInt8) (hd : now ≤ deadline) (s : Stream) :
    now ≤ (s.write data deadline now).now := by
  have hsettle := (s.writeUptake data.length).le_snd_settle hd
  rw [write]
  split
  · rename_i heq
    rwa [heq] at hsettle
  · rename_i heq
    rwa [heq] at hsettle

theorem Stream.le_now_flush (hd : now ≤ deadline) (s : Stream) :
    now ≤ (s.flush deadline now).now := by
  have hsettle := s.flushUptake.le_snd_settle hd
  rw [flush]
  split
  · rename_i heq
    rwa [heq] at hsettle
  · rename_i heq
    rwa [heq] at hsettle
  · rename_i heq
    rwa [heq] at hsettle

theorem Reader.le_now_fill (hd : now ≤ deadline) (r : Reader) :
    now ≤ (r.fill deadline now).now := by
  have hread : now ≤ (r.stream.read r.capacity deadline now).now := Stream.le_now_readArrivals hd
  rw [fill]
  split
  · dsimp only
    split
    · exact hread
    · exact hread
  · exact Nat.le_refl now

theorem Reader.le_now_read (cap : Nat) (hd : now ≤ deadline) (r : Reader) :
    now ≤ (r.read cap deadline now).now := by
  have hfill := r.le_now_fill hd
  rw [read]
  split
  · exact Stream.le_now_readArrivals hd
  · dsimp only
    split
    · exact hfill
    · exact hfill

end FieldCamera.Link

namespace FieldCamera.Upload

open Link

namespace Reply

theorem le_now_readLine (limits : Limits) (kept : List UInt8) (now : Nat) (r : Reader) :
    now ≤ (readLine limits kept now r).now := by
  fun_induction readLine limits kept now r with
  | case1 kept now r t | case2 kept now r t | case3 kept now r t | case4 kept now r t =>
      exact r.le_now_fill (Nat.le_add_right _ _)
  | case5 kept now r t bytes hd hb hcut ih =>
      exact (r.le_now_fill (Nat.le_add_right _ _)).trans ih

theorem le_now_skipHeaders (limits : Limits) (now : Nat) (r : Reader) :
    now ≤ (skipHeaders limits now r).now := by
  fun_induction skipHeaders limits now r with
  | case1 now r t | case2 now r t | case3 now r t => exact le_now_readLine limits [] now r
  | case4 now r t line ht hempty ih => exact (le_now_readLine limits [] now r).trans ih

theorem le_now_readBody (limits : Limits) (kept : List UInt8) (now : Nat) (r : Reader) :
    now ≤ (readBody limits kept now r).now := by
  fun_induction readBody limits kept now r with
  | case1 kept now r t | case2 kept now r t | case3 kept now r t =>
      exact r.le_now_read bodyBlock (Nat.le_add_right _ _)
  | case4 kept now r t bytes hd hb ih =>
      exact (r.le_now_read bodyBlock (Nat.le_add_right _ _)).trans ih

theorem le_now_readRest (limits : Limits) (status : Nat) (text : String) (now : Nat)
    (r : Reader) : now ≤ (readRest limits status text now r).now := by
  have hskip := le_now_skipHeaders limits now r
  rw [readRest]
  dsimp only
  split
  · exact hskip
  · exact hskip
  · exact hskip.trans (le_now_readBody ..)

theorem le_now_receive (limits : Limits) (now : Nat) (r : Reader) :
    now ≤ (receive limits now r).now := by
  have hline := le_now_readLine limits [] now r
  rw [receive]
  dsimp only
  split
  · exact hline
  · split
    · exact hline.trans (le_now_readRest ..)
    · exact hline

end Reply

theorem le_now_writeAll (limit : Nat) (data : List UInt8) (p : Progress) :
    p.now ≤ (writeAll limit data p).1.now := by
  fun_induction writeAll limit data p with
  | case1 p => exact Nat.le_refl p.now
  | case2 data p hne t | case3 data p hne t | case4 data p hne t =>
      exact p.stream.le_now_write data (Nat.le_add_right _ _)
  | case5 data p hne t n hd ih =>
      exact (p.stream.le_now_write data (Nat.le_add_right _ _)).trans ih

theorem le_now_writePieces (limit : Nat) (pieces : List (List UInt8)) (p : Progress) :
    p.now ≤ (writePieces limit pieces p).1.now := by
  induction pieces generalizing p with
  | nil => exact Nat.le_refl p.now
  | cons piece rest ih =>
      have hpiece := le_now_writeAll limit piece p
      rw [writePieces]
      split
      · rename_i heq
        rwa [heq] at hpiece
      · rename_i heq
        rw [heq] at hpiece
        exact hpiece.trans (ih _)

theorem le_now_exchange (pace : Pace) (target : Address) (e : Envelope) (now : Nat) (r : Reader) :
    now ≤ (exchange pace target e now r).now := by
  have hwrite := le_now_writePieces pace.writeMs (e.pieces target pace.chunkSize) ⟨0, now, r.stream⟩
  rw [exchange]
  split
  · rename_i heq
    rwa [heq] at hwrite
  · rename_i p heq
    rw [heq] at hwrite
    have hflush := hwrite.trans (p.stream.le_now_flush (Nat.le_add_right p.now pace.writeMs))
    dsimp only
    split
    · exact hflush
    · exact hflush
    · have hreply (r : Reader) := hflush.trans (Reply.le_now_receive pace.reply _ r)
      split
      · exact hreply _
      · exact hreply _

theorem Uplink.le_now_connect (target : Address) (now : Nat) (u : Uplink) :
    now ≤ (u.connect target now).2.1 := by
  rw [connect]
  split
  · exact Nat.le_refl now
  · rw [dial]
    dsimp only
    split
    · exact Nat.le_refl now
    · split
      · exact Nat.le_add_right _ _
      · exact Nat.le_add_right _ _

theorem Uplink.le_now_send (pace : Pace) (target : Address) (e : Envelope) (now : Nat)
    (u : Uplink) : now ≤ (u.send pace target e now).2.1 := by
  have hconnect := u.le_now_connect target now
  rw [send]
  split
  · rename_i heq
    rwa [heq] at hconnect
  · rename_i heq
    rw [heq] at hconnect
    exact hconnect.trans (le_now_exchange ..)

/-- A post does not end before it starts. -/
theorem le_now_post (sender : Sender) (pace : Pace) (stamp : Stamp) (frame : Capture)
    (url : String) (now : Nat) (u : Uplink) :
    now ≤ (post sender pace stamp frame url now u).2.1 := by
  rw [post]
  split
  · exact Nat.le_refl now
  · rename_i target e _
    have hsend := u.le_now_send pace target e now
    split
    · rename_i heq
      rwa [heq] at hsend
    · rename_i heq
      rwa [heq] at hsend

end FieldCamera.Upload
