import Rtsrv.Lib.Feed
import Rtsrv.Client.NexthopTable
import Rtsrv.Client.NlReceive
import Rtsrv.Client.Snapshots

/-!
# Rtsrv.Client.WatchTables — the neighbor and the nexthop monitor (`cmdWatchNeighbors`, `cmdWatchNexthops`)

A monitor is subscribed when it asks for the dump, so that dump and notices come through one socket, in any
order and in any datagrams.  From the mark on its table has one row for each object of the kernel, and the
snapshot that it published last is that table.
-/

namespace Rtsrv.Client

open Lib CmdProto

def EXIT_SUCCESS : ℤ := 0
def EXIT_FAILURE : ℤ := 1

/-- What a monitor has come to: its table, the snapshots that it gave to the UDP server, and the exit status
unless it still waits for the kernel. -/
structure Watched (τ : Type) where
  table : τ
  published : List String
  ret : Option ℤ

section Monitor

variable {δ τ : Type}

/-- A live callback: the table part, and a snapshot. -/
def liveCb (update : NetlinkEvent → δ → τ → τ) (serialize : τ → String) (ctx : τ × List String)
    (e : NetlinkEvent × δ) : τ × List String :=
  let table := update e.1 e.2 ctx.1
  (table, ctx.2 ++ [serialize table])

/-- A monitor, on a socket that could be opened and subscribed or not.  A dump that fails is only reported,
and whatever the live loop returns the exit status is that of a clean stop. -/
def watchTable (dump live : List Recv → Access (Received (NetlinkEvent × δ)))
    (update : NetlinkEvent → δ → τ → τ) (serialize : τ → String) (empty : τ) (opened : Bool)
    (recvs : List Recv) : Access (Watched τ) :=
  if opened then do
    let dumped ← dump recvs
    let table := dumped.events.foldl (fun table e => update e.1 e.2 table) empty
    match dumped.ret with
    | none => pure ⟨table, [], none⟩
    | some _ =>
      let r ← live dumped.recvs
      let ctx := r.events.foldl (liveCb update serialize) (table, [serialize table])
      pure ⟨ctx.1, ctx.2, r.ret.map fun _ => EXIT_SUCCESS⟩
  else pure ⟨empty, [], some EXIT_FAILURE⟩

end Monitor

def cmdWatchNeighbors (libc : Libc) (send : List UInt8 → Bool) :
    Bool → List Recv → Access (Watched Neighbors) :=
  watchTable (netlinkNeighDump libc send) (netlinkNeighRun libc) nlNeighUpdate serializeNeighborTable .empty

def cmdWatchNexthops (libc : Libc) (send : List UInt8 → Bool) :
    Bool → List Recv → Access (Watched Nexthops) :=
  watchTable (netlinkNexthopDump libc send) (netlinkNexthopRun libc) nlNexthopUpdate serializeNexthopTable
    .empty

/-! ### The messages that carry what the kernel sends -/

section Carried

variable {ω δ κ ρ : Type} [DecidableEq κ] {key : ρ → κ}

/-- The message is about what was sent: an object that is there comes as a `new` message, whatever its flags
and its sequence number are, one that is no more as a `del` message, and the mark as `NLMSG_DONE`. -/
def Carries (new del : UInt16) (Holds : ω → PaddedMsg → Prop) : FeedMsg ω → PaddedMsg → Prop
  | .notice (.added o), m | .notice (.changed o), m | .dumped o, m => m.hdr.nlmsg_type = new ∧ Holds o m
  | .notice (.removed o), m => m.hdr.nlmsg_type = del ∧ Holds o m
  | .done, m => m.hdr.nlmsg_type = NLMSG_DONE

/-- The dispatcher reads the object from the messages that hold it. -/
def ReadsObject (new del : UInt16) (dispatch : NlMsgHdr → List UInt8 → Access (Option (NetlinkEvent × δ)))
    (Holds : ω → PaddedMsg → Prop) (desc : ω → δ) : Prop :=
  ∀ o m event, Holds o m → m.hdr.event new del = some event → ∀ rest,
    dispatch m.hdr (m.bytes ++ rest) = .ok (some (event, desc o))

variable {new del : UInt16} {dispatch : NlMsgHdr → List UInt8 → Access (Option (NetlinkEvent × δ))}
  {Holds : ω → PaddedMsg → Prop} {desc : ω → δ} (entry : δ → ρ)

/-- The table after callbacks. -/
def updated (t : Keyed key) (events : List (NetlinkEvent × δ)) : Keyed key :=
  events.foldl (fun t e => updateTable e.1 (entry e.2) t) t

/-- A `new` message puts the row of its object. -/
theorem updated_new (hreads : ReadsObject new del dispatch Holds desc) {o : ω} {m : PaddedMsg}
    (hm : m.hdr.nlmsg_type = new ∧ Holds o m) (t : Keyed key) :
    updated entry t (m.events new del dispatch) = t.put (entry (desc o)) := by
  obtain ⟨hnew, hholds⟩ := hm
  obtain ⟨event, hevent⟩ := event_of_mine (.inl hnew : m.hdr.nlmsg_type = new ∨ m.hdr.nlmsg_type = del)
  have hdispatch := hreads o m event hholds hevent []
  rw [List.append_nil] at hdispatch
  rw [NlMsgHdr.event, if_pos hnew] at hevent
  rw [PaddedMsg.events, if_pos (.inl hnew), hdispatch]
  show updateTable event (entry (desc o)) t = _
  obtain rfl := Option.some.inj hevent
  split_ifs <;> rfl

/-- A `del` message erases it. -/
theorem updated_del (hne : new ≠ del) (hreads : ReadsObject new del dispatch Holds desc) {o : ω}
    {m : PaddedMsg} (hm : m.hdr.nlmsg_type = del ∧ Holds o m) (t : Keyed key) :
    updated entry t (m.events new del dispatch) = t.erase (key (entry (desc o))) := by
  obtain ⟨hdel, hholds⟩ := hm
  have hevent : m.hdr.event new del = some .REMOVED := by
    rw [NlMsgHdr.event, if_neg fun hnew => hne (hnew.symm.trans hdel), if_pos hdel]
  have hdispatch := hreads o m .REMOVED hholds hevent []
  rw [List.append_nil] at hdispatch
  rw [PaddedMsg.events, if_pos (.inr hdel), hdispatch]
  rfl

/-- The mark has no callback. -/
theorem events_done (hnew : new ≠ NLMSG_DONE) (hdel : del ≠ NLMSG_DONE) {m : PaddedMsg}
    (hm : m.hdr.nlmsg_type = NLMSG_DONE) : m.events new del dispatch = [] := by
  refine if_neg fun hmine => ?_
  rcases hmine with h | h
  · exact hnew (h.symm.trans hm)
  · exact hdel (h.symm.trans hm)

variable (hne : new ≠ del) (hnew : new ≠ NLMSG_DONE) (hdel : del ≠ NLMSG_DONE)
  (hreads : ReadsObject new del dispatch Holds desc)

include hne hnew hdel hreads

/-- The callback of a message does to the rows what was sent does to them. -/
theorem contents_updated {msg : FeedMsg ω} {m : PaddedMsg} (hm : Carries new del Holds msg m)
    (t : Keyed key) : (updated entry t (m.events new del dispatch)).contents =
      msg.effect key (fun o => entry (desc o)) t.contents := by
  rcases msg with (o | o | o) | o | _
  · rw [updated_new entry hreads hm, Keyed.contents_put]
    rfl
  · rw [updated_new entry hreads hm, Keyed.contents_put]
    rfl
  · rw [updated_del entry hne hreads hm, Keyed.contents_erase]
    rfl
  · rw [updated_new entry hreads hm, Keyed.contents_put]
    rfl
  · rw [events_done hnew hdel hm]
    rfl

theorem contents_callbacks {msgs : List (FeedMsg ω)} {ms : List PaddedMsg}
    (hms : List.Forall₂ (Carries new del Holds) msgs ms) :
    ∀ t : Keyed key, (updated entry t (callbacks new del dispatch ms)).contents =
      msgs.foldl (fun T msg => msg.effect key (fun o => entry (desc o)) T) t.contents := by
  induction hms with
  | nil => intro t; rfl
  | @cons msg m msgs ms hm hms ih =>
    intro t
    rw [List.foldl_cons, ← contents_updated entry hne hnew hdel hreads hm, ← ih, updated, updated, updated,
      ← List.foldl_append]
    rfl

omit hne hnew hdel

/-- The dispatcher reads every message that carries something. -/
theorem carried_reads {msgs : List (FeedMsg ω)} {ms : List PaddedMsg}
    (hms : List.Forall₂ (Carries new del Holds) msgs ms) {m : PaddedMsg} (hm : m ∈ ms) (hplain : m.Plain) :
    m.Reads new del dispatch := by
  obtain ⟨i, hi, rfl⟩ := List.getElem_of_mem hm
  have hcarries := hms.get (hms.length_eq ▸ hi) hi
  intro hmine
  obtain ⟨event, hevent⟩ := event_of_mine hmine
  have hread : ∀ {o}, Holds o ms[i] → ∃ ev, ∀ rest, dispatch ms[i].hdr (ms[i].bytes ++ rest) = .ok ev :=
    fun hholds => ⟨_, hreads _ _ event hholds hevent⟩
  revert hcarries
  rcases msgs.get ⟨i, hms.length_eq ▸ hi⟩ with (o | o | o) | o | _
  · exact fun h => hread h.2
  · exact fun h => hread h.2
  · exact fun h => hread h.2
  · exact fun h => hread h.2
  · exact fun h => absurd h hplain.1

omit hreads in
include hnew hdel in
/-- A mark among the messages has been sent. -/
theorem done_of_carried {msgs : List (FeedMsg ω)} {ms : List PaddedMsg}
    (hms : List.Forall₂ (Carries new del Holds) msgs ms) {m : PaddedMsg} (hm : m ∈ ms)
    (hdone : m.hdr.nlmsg_type = NLMSG_DONE) : FeedMsg.done ∈ msgs := by
  obtain ⟨i, hi, rfl⟩ := List.getElem_of_mem hm
  have hi' : i < msgs.length := hms.length_eq ▸ hi
  have hcarries := hms.get hi' hi
  have hmem := List.get_mem msgs ⟨i, hi'⟩
  revert hcarries hmem
  rcases msgs.get ⟨i, hi'⟩ with (o | o | o) | o | _
  · exact fun h => absurd (h.1.symm.trans hdone) hnew
  · exact fun h => absurd (h.1.symm.trans hdone) hnew
  · exact fun h => absurd (h.1.symm.trans hdone) hdel
  · exact fun h => absurd (h.1.symm.trans hdone) hnew
  · exact fun _ hmem => hmem

end Carried

/-! ### A monitor over a run of the kernel -/

section Run

variable {δ τ : Type} {update : NetlinkEvent → δ → τ → τ} {serialize : τ → String}

/-- The live callbacks keep the table, and the last snapshot is of it. -/
theorem foldl_liveCb (events : List (NetlinkEvent × δ)) :
    ∀ {table : τ} {published : List String}, published.getLast? = some (serialize table) →
      (events.foldl (liveCb update serialize) (table, published)).1 =
          events.foldl (fun table e => update e.1 e.2 table) table ∧
        (events.foldl (liveCb update serialize) (table, published)).2.getLast? =
          some (serialize (events.foldl (liveCb update serialize) (table, published)).1) := by
  induction events with
  | nil => exact fun h => ⟨rfl, h⟩
  | cons e events ih => exact fun h => ih List.getLast?_concat

variable {ω κ ρ : Type} [DecidableEq ω] [DecidableEq κ] {key : ρ → κ}

/-- A keyed table that shows rows has these, and no others. -/
theorem perm_of_shows {m : Keyed key} {rows : List ρ} (h : Shows key m.contents rows)
    (hd : DistinctKeys key rows) : m.rows.Perm rows := by
  have hnodup : m.rows.Nodup := List.Nodup.of_map key m.distinct
  refine (List.perm_ext_iff_of_nodup hnodup (List.Nodup.of_map key hd)).mpr fun r => ?_
  have hr := h (key r) r
  rw [and_iff_left rfl] at hr
  rw [← hr]
  show _ ↔ m.find (key r) = some r
  rw [Keyed.find_eq_some, and_iff_left rfl]

variable {size : ℕ}

/-- All messages, in the order in which the kernel has sent them. -/
def DumpAnswer.all (a : DumpAnswer size) : List PaddedMsg := a.dumped ++ a.mark :: (a.lost ++ a.later)

variable {new del : UInt16} {dispatch : NlMsgHdr → List UInt8 → Access (Option (NetlinkEvent × δ))}
  {Holds : ω → PaddedMsg → Prop} {desc : ω → δ} {entry : δ → ρ}

/-- A monitor that puts and erases rows comes to wait with exactly the rows of the objects. -/
theorem watchTable_shows (hsize : size < 2 ^ 32) (hne : new ≠ del) (hnew : new ≠ NLMSG_DONE) (hdel : del ≠ NLMSG_DONE)
    (hreads : ReadsObject new del dispatch Holds desc) {objs : List ω} {as : List (FeedAction ω)} {f : Feed ω}
    (h0 : DistinctKeys key (objs.map fun o => entry (desc o)))
    (ht : Along feedStep (Feed.Tame key fun o => entry (desc o)) (.start objs) as)
    (hrun : run feedStep (.start objs) as = some f) {a : DumpAnswer size} (hlost : a.lost = [])
    (hsent : List.Forall₂ (Carries new del Holds) f.sent a.all) {send : List UInt8 → Bool} {req : NlMsg}
    (hsend : send req.bytes = true) (serialize : Keyed key → String) :
    ∃ w, watchTable (netlinkDump size (processStep new del dispatch) send req)
          (runLoop size (processStep new del dispatch) []) (fun event d => updateTable event (entry d)) serialize
          .empty true a.recvs = .ok w ∧
      w.ret = none ∧ w.table.rows.Perm (f.objs.map fun o => entry (desc o)) ∧
      w.published.getLast? = some (serialize w.table) := by
  obtain ⟨htracked, hmarked, hshows⟩ := feed_shows h0 ht hrun
  rw [DumpAnswer.all, hlost, List.nil_append] at hsent
  have hdone : f.phase = .sent := by
    by_contra hnot
    exact hmarked.unmarked hnot (done_of_carried hnew hdel hsent (by simp) a.done)
  obtain ⟨hdump, hlive⟩ := a.dump_run hsize (fun m hm => carried_reads hreads hsent
    (List.mem_append.mpr ((List.mem_append.mp hm).imp_right (List.mem_cons_of_mem _))) (a.plain m hm)) hsend
  have hcontents : (updated entry (updated entry (.empty : Keyed key) (callbacks new del dispatch a.dumped))
      (callbacks new del dispatch a.later)).contents = f.table key fun o => entry (desc o) := by
    have hall := contents_callbacks entry hne hnew hdel hreads hsent (.empty : Keyed key)
    rw [callbacks_append, callbacks, callbacks, List.flatMap_cons, events_done hnew hdel a.done,
      List.nil_append, updated, List.foldl_append] at hall
    exact hall
  let update : NetlinkEvent → δ → Keyed key → Keyed key := fun event d => updateTable event (entry d)
  let table : Keyed key := updated entry .empty (callbacks new del dispatch a.dumped)
  let ctx := (callbacks new del dispatch a.later).foldl (liveCb update serialize) (table, [serialize table])
  obtain ⟨htable, hlast⟩ := foldl_liveCb (callbacks new del dispatch a.later)
    (rfl : [serialize table].getLast? = some (serialize table))
  refine ⟨⟨ctx.1, ctx.2, none⟩, ?_, rfl, ?_, hlast⟩
  · rw [watchTable, if_pos rfl, hdump, ok_bind]
    dsimp only
    rw [hlive]
    rfl
  · refine perm_of_shows ?_ htracked.distinct
    show Shows key ctx.1.contents _
    rw [htable]
    show Shows key (updated entry table (callbacks new del dispatch a.later)).contents _
    rw [hcontents]
    exact hshows hdone

end Run

/-! ### Neighbors and nexthop objects -/

/-- A neighbor of the kernel, each attribute once, with what names it among them. -/
structure NeighObj where
  ndm : NdMsg
  attrs : List RtAttr
  id : NeighId
  once : (attrs.map RtAttr.rtype).Nodup
  named : id.Named ndm attrs
  deriving DecidableEq

/-- A nexthop object of the kernel, each attribute once. -/
structure NexthopObj where
  nhm : NhMsg
  attrs : List RtAttr
  once : (attrs.map RtAttr.rtype).Nodup
  deriving DecidableEq

namespace NeighObj

variable (libc : Libc) (o : NeighObj)

/-- The message holds the neighbor. -/
def In (m : PaddedMsg) : Prop :=
  28 ≤ m.hdr.nlmsg_len ∧ o.ndm.At m.bytes ∧ attrBytes m.hdr m.bytes 28 = o.attrs.flatMap RtAttr.bytes

def row : NeighEntry := (o.ndm.neigh libc o.attrs).entry

/-- What neighbors are told apart by: of those without an IP address there is one of each family and
interface. -/
def told : UInt8 × UInt32 × Option NeighId :=
  (o.id.family, o.id.ifindex, if o.id.Ip then some o.id else none)

variable {libc}

theorem reads : ReadsObject RTM_NEWNEIGH RTM_DELNEIGH (nlNeighDispatch libc) In
    fun o => o.ndm.neigh libc o.attrs := by
  intro o m event h hevent rest
  obtain ⟨hheader, hndm, hattrs⟩ := h
  have hmine : m.hdr.nlmsg_type = RTM_NEWNEIGH ∨ m.hdr.nlmsg_type = RTM_DELNEIGH := by
    by_contra hmine
    obtain ⟨hnew, hdel⟩ := not_or.mp hmine
    rw [NlMsgHdr.event, if_neg hnew, if_neg hdel] at hevent
    cases hevent
  have hmessage := nlNeighDispatch_message libc
    ⟨m.hdr, m.bytes, o.ndm, o.attrs, o.id, hmine, m.length_le, hheader, hndm, hattrs, o.once, o.named⟩
  have hsame := (NeighMessage.hdr_event ⟨m.hdr, m.bytes, o.ndm, o.attrs, o.id, hmine, m.length_le, hheader,
    hndm, hattrs, o.once, o.named⟩).symm.trans hevent
  rw [Option.some.inj hsame] at hmessage
  exact nlNeighDispatch_append m.length_le hmessage rest

theorem key_row (hinj : Function.Injective libc.inet_ntop6) (hne : ∀ addr, libc.inet_ntop6 addr ≠ "")
    (o o' : NeighObj) : (o.row libc).key = (o'.row libc).key ↔ o.told = o'.told := by
  have hkey : ∀ o : NeighObj,
      (o.row libc).key = neighKey o.id.family o.id.ifindex.toInt32 (o.id.dst libc) := by
    intro o
    obtain ⟨hfamily, hifindex, hdst⟩ := o.named.neigh libc
    rw [← hfamily, ← hifindex, ← hdst]
    rfl
  have hcast : o.id.ifindex.toInt32 = o'.id.ifindex.toInt32 ↔ o.id.ifindex = o'.id.ifindex :=
    ⟨fun h => by simpa using congrArg Int32.toUInt32 h, fun h => by rw [h]⟩
  rw [hkey, hkey, neighKey_inj, hcast, told, told, Prod.mk.injEq, Prod.mk.injEq]
  refine and_congr_right fun hfamily => and_congr_right fun hifindex => ?_
  rw [NeighId.keyDst_eq_iff hinj hne o.named o'.named hfamily hifindex]
  by_cases hip : o'.id.Ip
  · rw [if_pos hip, imp_iff_right hip]
    refine ⟨fun heq => by rw [heq, if_pos hip], fun heq => ?_⟩
    split_ifs at heq
    exact Option.some.inj heq
  · have hother : o'.id.family ≠ AF_INET ∧ o'.id.family ≠ AF_INET6 ∧ o'.id.dst libc = "" :=
      o'.named.of_not_ip hip
    obtain ⟨h4, h6, -⟩ := hother
    have hnot : ¬o.id.Ip := by
      intro h
      rcases hid : o.id with ⟨i, addr⟩ | ⟨i, addr⟩ | ⟨i, mac, vlan⟩ | ⟨family, i, addr⟩
      · exact h4 (hfamily.symm.trans (by rw [hid]; rfl))
      · exact h6 (hfamily.symm.trans (by rw [hid]; rfl))
      · rw [hid] at h
        exact h
      · rw [hid] at h
        exact h
    rw [if_neg hip, if_neg hnot]
    exact iff_of_true (fun h => absurd h hip) rfl

end NeighObj

namespace NexthopObj

variable (libc : Libc) (o : NexthopObj)

/-- The message holds the nexthop object. -/
def In (m : PaddedMsg) : Prop :=
  24 ≤ m.hdr.nlmsg_len ∧ o.nhm.At m.bytes ∧ attrBytes m.hdr m.bytes 24 = o.attrs.flatMap RtAttr.bytes

def row : NexthopEntry := (o.nhm.nexthop libc o.attrs).entry

/-- The value of `NHA_ID`. -/
def id : UInt32 := attrValue o.attrs NHA_ID 4 (fun a => u32At a.data 0) 0

variable {libc}

theorem reads : ReadsObject RTM_NEWNEXTHOP RTM_DELNEXTHOP (nlNexthopDispatch libc) In
    fun o => o.nhm.nexthop libc o.attrs := by
  intro o m event h hevent rest
  obtain ⟨hheader, hnhm, hattrs⟩ := h
  have hmessage : nlNexthopDispatch libc m.hdr m.bytes = _ :=
    nlNexthopDispatch_message m.length_le hheader hevent hnhm hattrs o.once
  exact nlNexthopDispatch_append m.length_le hmessage rest

end NexthopObj

/-- A host's neighbor and a nexthop object, each dumped and then removed. -/
def oneNeigh : NeighObj where
  ndm := ⟨AF_INET, 2, 2, 0, 1⟩
  attrs := [⟨NDA_DST, [10, 0, 0, 1], by decide⟩]
  id := .inet 2 (ipv4 10 0 0 1)
  once := by decide
  named := ⟨rfl, rfl, rfl⟩

def oneNexthop : NexthopObj where
  nhm := ⟨AF_INET, 0, 0, 0⟩
  attrs := [⟨NHA_ID, [7, 0, 0, 0], by decide⟩]
  once := by decide

/-- An object comes in the dump, and another message behind it. -/
def oneDumped (m gone : PaddedMsg) (hplain : m.Plain ∧ gone.Plain)
    (hfits : (wire [m, donePadded]).length ≤ size ∧ (wire [gone]).length ≤ size) : DumpAnswer size where
  before := [.interrupted]
  last := ⟨[m, donePadded], List.cons_ne_nil _ _, hfits.1⟩
  pre := [m]
  mark := donePadded
  lost := []
  after := [.interrupted, .datagram ⟨[gone], List.cons_ne_nil _ _, hfits.2⟩]
  split := rfl
  done := donePadded_done
  plain := List.forall_mem_cons.mpr ⟨hplain.1, List.forall_mem_singleton.mpr hplain.2⟩

def multiNeigh : NlMsg := { neighMsg with nlmsg_flags := NLM_F_MULTI }
def neighGone : NlMsg := { neighMsg with nlmsg_type := RTM_DELNEIGH }
def multiNexthop : NlMsg := { nexthopMsg with nlmsg_flags := NLM_F_MULTI }
def nexthopGone : NlMsg := { nexthopMsg with nlmsg_type := RTM_DELNEXTHOP }

def neighDumped : DumpAnswer NL_NEIGH_BUF_SIZE :=
  oneDumped (multiNeigh.toPadded (by decide)) (neighGone.toPadded (by decide)) (by decide) (by decide)

def nexthopDumped : DumpAnswer NL_NEXTHOP_BUF_SIZE :=
  oneDumped (multiNexthop.toPadded (by decide)) (nexthopGone.toPadded (by decide)) (by decide) (by decide)

end Rtsrv.Client
