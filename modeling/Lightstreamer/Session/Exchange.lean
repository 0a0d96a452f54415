import Lightstreamer.Session.BindKind
import Lightstreamer.Session.Coherence
import Lightstreamer.Session.Reexecution

/-!
# The requests on the network

What the driver does not see: the requests that are on their way to the server, the ones that were
lost, and the subscriptions that the server has. `Remote` follows the actions of the driver
(`Remote.observe`): a request that the transport takes is on its way until the server acts on it or
it is lost, and one whose send reports an error may have reached the server all the same. Where
requests share the stream connection, one belongs to the connection that it was sent on, and is in
flight as long as that is the live one (`Remote.isLive`); the server may read what is left of a
connection that the driver gave up. `Exchange.step` runs a driver with its `Remote`, in any order of
turns, arrivals, losses and connections that break.

`Remote.Grows` says what observing can change, for one action (`observe_grows`), for a list of them
(`follow_grows`), and for the two steps that are not the driver's.
-/

namespace Lightstreamer.Session

open Lightstreamer.Foundations Lightstreamer.Protocol Lightstreamer.Subscription

/-- The subscription that a request is about. -/
def PendingKind.about : PendingKind → Option SubscriptionKey
  | subscribe key | unsubscribe key | reconfigure key _ => some key
  | sendMessage .. | forceRebind | destroy => none

/-- A control request that left the driver, and what it was filed as. -/
structure Parcel where
  request : ControlRequest
  kind : PendingKind
  deriving DecidableEq

/-- A request on its way, and the connection that it was sent on. -/
structure Flight where
  parcel : Parcel
  connection : ℕ
  deriving DecidableEq

/-- A subscription as the server has it: the id it was asked for under, and the key that asked. -/
structure Grant where
  subId : ℕ
  key : SubscriptionKey
  deriving DecidableEq

namespace Parcel

/-- The subscription that an `add` asks for. -/
def asks : Parcel → Option Grant
  | ⟨.subscribe r, .subscribe key⟩ => some ⟨r.subscriptionId.val, key⟩
  | _ => none

/-- Whether a `delete` names the subscription. -/
def ends (p : Parcel) (g : Grant) : Bool :=
  match p.request with
  | .unsubscribe r => r.subscriptionId.val = g.subId
  | _ => false

/-- The id under which the answer comes. -/
def id (p : Parcel) : Option String := (requestIdOf p.request).map RequestId.text

theorem kind_of_asks {p : Parcel} {g : Grant} (h : p.asks = some g) :
    p.kind = .subscribe g.key := by
  unfold asks at h
  split at h
  · cases h
    rfl
  · cases h

/-- A request that asks for a subscription ends none. -/
theorem ends_of_asks {p : Parcel} {g : Grant} (h : p.asks = some g) (g' : Grant) :
    p.ends g' = false := by
  unfold asks at h
  split at h
  · rfl
  · cases h

end Parcel

/-- The subscription that an action asks the server for. -/
def Action.asks : Action → Option Grant
  | .control request (some kind) _ _ => Parcel.asks ⟨request, kind⟩
  | _ => none

/-- An action that asks for no subscription and reports no bind. -/
def Action.Passes (a : Action) : Prop := a.boundId = none ∧ a.asks = none

/-- An action that reports no bind, is none of the loop, and sends nothing but `add` requests. -/
def Action.OnlyAsks (a : Action) : Prop :=
  a.boundId = none ∧ ¬a.IsLoop ∧ ∀ request kind parameters error,
    a = .control request (some kind) parameters error → (Parcel.asks ⟨request, kind⟩).isSome

theorem Action.IsReport.passes {a : Action} (h : a.IsReport) : a.Passes := by
  refine ⟨h.isQuiet.boundId, ?_⟩
  cases a with
  | control => cases h
  | _ => rfl

theorem Action.IsReport.not_isLoop {a : Action} (h : a.IsReport) : ¬a.IsLoop := by
  cases a with
  | event e => cases e <;> first | exact id | cases h
  | setControlLink => exact id
  | _ => cases h

theorem Action.Notice.boundId {K : PendingKind → Prop} {a : Action} (h : a.Notice K) :
    a.boundId = none := by
  cases a with
  | event e => cases e <;> first | rfl | cases h
  | _ => rfl

/-! ## The server and the network -/

/-- What the network and the server have of the session bound last. -/
structure Remote where
  /-- Whether requests travel on the stream connection. -/
  shares : Bool
  /-- The current stream connection, by its number. -/
  connection : ℕ
  /-- Whether the driver closed the connection before this one, and opened none yet. -/
  down : Bool
  session : Option SessionId
  /-- The requests on their way. -/
  flying : List Flight
  /-- The requests that the server acted on. -/
  received : List Parcel
  /-- The requests that the transport took and that were lost, or whose refusal was. -/
  lost : List Parcel
  /-- The subscriptions that the server has. -/
  held : List Grant
  /-- The subscriptions that the server ended because it was asked to. -/
  ended : List Grant
  deriving DecidableEq

namespace Remote

/-- A session as it starts. -/
def new (shares : Bool) (session : Option SessionId) : Remote :=
  ⟨shares, 0, false, session, [], [], [], [], []⟩

/-- The server acts on a request. -/
def receive (r : Remote) (p : Parcel) : Remote :=
  { r with
    received := p :: r.received
    held := p.asks.toList ++ r.held.filter fun g => !p.ends g
    ended := r.held.filter p.ends ++ r.ended }

/-- A request goes on its way. -/
def depart (r : Remote) (p : Parcel) : Remote :=
  { r with flying := ⟨p, r.connection⟩ :: r.flying }

/-- A request on its way reaches the server. -/
def arrive (r : Remote) (f : Flight) : Remote :=
  receive { r with flying := r.flying.erase f } f.parcel

/-- A request on its way is lost. -/
def lose (r : Remote) (f : Flight) : Remote :=
  { r with flying := r.flying.erase f, lost := f.parcel :: r.lost }

/-- The stream connection is replaced: what was sent before was not sent on the new one. -/
def sever (r : Remote) (down : Bool) : Remote :=
  { r with connection := r.connection + 1, down := down }

/-- What an action of the driver brings about. The requests in `heard` reach the server though their
send reports an error. A session that was not bound before has no subscriptions, and what is on its
way is for another one. -/
def observe (heard : List Parcel) (r : Remote) : Action → Remote
  | .control request (some kind) _ none => r.depart ⟨request, kind⟩
  | .control request (some kind) _ (some _) =>
    if ⟨request, kind⟩ ∈ heard then r.receive ⟨request, kind⟩ else r
  | .event (.bound info) _ =>
    if r.session = some info.sessionId then r else .new r.shares (some info.sessionId)
  | .close => r.sever true
  | .openStream _ => if r.down then r.sever false else r
  | _ => r

def follow (heard : List Parcel) (r : Remote) (actions : List Action) : Remote :=
  actions.foldl (observe heard) r

/-- What became of the network and the server while the driver went from `d` to `d'`. -/
def after (heard : List Parcel) (r : Remote) (d d' : SessionDriver) : Remote :=
  r.follow heard (d'.trace.drop d.trace.length)

/-- Whether a request on its way is in flight on a connection that is live: a request with a
connection of its own always is. -/
def isLive (r : Remote) (f : Flight) : Bool := !r.shares || f.connection == r.connection

/-- The requests in flight. -/
def inFlight (r : Remote) : List Parcel := (r.flying.filter r.isLive).map Flight.parcel

/-- The subscriptions that the server has, or that a request in flight asks for. -/
def known (r : Remote) : List Grant := r.held ++ r.inFlight.filterMap Parcel.asks

/-- The subscriptions that the server has, or that a request on its way asks for. -/
def afoot (r : Remote) : List Grant := r.held ++ r.flying.filterMap fun f => f.parcel.asks

/-- The requests that the driver made in this session. -/
def Made (r : Remote) (p : Parcel) : Prop :=
  (∃ f ∈ r.flying, f.parcel = p) ∨ p ∈ r.received ∨ p ∈ r.lost

/-- What became of a subscription that was asked for. -/
def Accounts (r : Remote) (g : Grant) : Prop :=
  g ∈ r.afoot ∨ g ∈ r.ended ∨ ∃ p ∈ r.lost, p.asks = some g

theorem mem_afoot {r : Remote} {g : Grant} :
    g ∈ r.afoot ↔ g ∈ r.held ∨ ∃ f ∈ r.flying, f.parcel.asks = some g := by
  rw [afoot, List.mem_append, List.mem_filterMap]

theorem mem_inFlight {r : Remote} {p : Parcel} :
    p ∈ r.inFlight ↔ ∃ f ∈ r.flying, r.isLive f = true ∧ f.parcel = p := by
  simp only [inFlight, List.mem_map, List.mem_filter, and_assoc]

theorem mem_known {r : Remote} {g : Grant} :
    g ∈ r.known ↔ g ∈ r.held ∨ ∃ f ∈ r.flying, r.isLive f = true ∧ f.parcel.asks = some g := by
  rw [known, List.mem_append, List.mem_filterMap]
  refine or_congr_right ⟨fun ⟨p, hp, hasks⟩ => ?_, fun ⟨f, hf, hlive, hasks⟩ =>
    ⟨f.parcel, mem_inFlight.mpr ⟨f, hf, hlive, rfl⟩, hasks⟩⟩
  obtain ⟨f, hf, hlive, rfl⟩ := mem_inFlight.mp hp
  exact ⟨f, hf, hlive, hasks⟩

/-- What is sent on the live connection is in flight. -/
theorem isLive_of_connection {r : Remote} {f : Flight} (h : f.connection = r.connection) :
    r.isLive f = true := by
  rw [isLive, h, beq_self_eq_true, Bool.or_true]

/-- The session goes on: nothing that was made or asked for is forgotten, and what is afoot now was
afoot or is in `new`. -/
structure Grows (new : Grant → Prop) (r r' : Remote) : Prop where
  session : r'.session = r.session
  made : ∀ p, r.Made p → r'.Made p
  accounts : ∀ g, r.Accounts g → r'.Accounts g
  afoot : ∀ g ∈ r'.afoot, g ∈ r.afoot ∨ new g

namespace Grows

variable {new : Grant → Prop} {r r' r'' : Remote}

theorem refl (new : Grant → Prop) (r : Remote) : Grows new r r :=
  ⟨rfl, fun _ h => h, fun _ h => h, fun _ h => .inl h⟩

theorem trans (h : Grows new r r') (h' : Grows new r' r'') : Grows new r r'' where
  session := h'.session.trans h.session
  made := fun p hp => h'.made p (h.made p hp)
  accounts := fun g hg => h'.accounts g (h.accounts g hg)
  afoot := fun g hg => by
    rcases h'.afoot g hg with hg | hg
    · exact h.afoot g hg
    · exact .inr hg

theorem mono {new' : Grant → Prop} (hnew : ∀ g, new g → new' g) (h : Grows new r r') :
    Grows new' r r' :=
  ⟨h.session, h.made, h.accounts, fun g hg => (h.afoot g hg).imp_right (hnew g)⟩

end Grows

/-- Which connection is live matters to none of this. -/
theorem connection_grows (r : Remote) (connection : ℕ) (down : Bool) :
    Grows (fun _ => False) r { r with connection := connection, down := down } :=
  ⟨rfl, fun _ hp => hp, fun _ hg => hg, fun _ hg => .inl hg⟩

/-- The server may come to know what it receives. -/
theorem receive_grows (r : Remote) (p : Parcel) :
    Grows (fun g => p.asks = some g) r (r.receive p) := by
  refine ⟨rfl, fun q hq => ?_, fun g hg => ?_, fun g hg => ?_⟩
  · exact hq.imp_right (.imp_left (List.mem_cons_of_mem p))
  · rcases hg with hg | hg | hg
    · rcases mem_afoot.mp hg with hg | hg
      · cases hends : p.ends g
        · refine .inl (mem_afoot.mpr (.inl (List.mem_append_right _ ?_)))
          exact List.mem_filter.mpr ⟨hg, by rw [hends]; rfl⟩
        · exact .inr (.inl (List.mem_append_left _ (List.mem_filter.mpr ⟨hg, hends⟩)))
      · exact .inl (mem_afoot.mpr (.inr hg))
    · exact .inr (.inl (List.mem_append_right _ hg))
    · exact .inr (.inr hg)
  · rcases mem_afoot.mp hg with hg | hg
    · rcases List.mem_append.mp hg with hg | hg
      · exact .inr (Option.mem_toList.mp hg)
      · exact .inl (mem_afoot.mpr (.inl (List.mem_filter.mp hg).1))
    · exact .inl (mem_afoot.mpr (.inr hg))

theorem eq_or_mem_erase (f : Flight) {f' : Flight} {l : List Flight} (h : f' ∈ l) :
    f' = f ∨ f' ∈ l.erase f := by
  by_cases heq : f' = f
  · exact .inl heq
  · exact .inr ((List.mem_erase_of_ne heq).mpr h)

theorem arrive_grows {r : Remote} {f : Flight} (hf : f ∈ r.flying) :
    Grows (fun _ => False) r (r.arrive f) := by
  have hreceive := receive_grows { r with flying := r.flying.erase f } f.parcel
  refine ⟨rfl, fun q hq => ?_, fun g hg => ?_, fun g hg => ?_⟩
  · rcases hq with ⟨f', hf', rfl⟩ | hq
    · rcases eq_or_mem_erase f hf' with rfl | hf'
      · exact .inr (.inl List.mem_cons_self)
      · exact hreceive.made _ (.inl ⟨f', hf', rfl⟩)
    · exact hreceive.made q (.inr hq)
  · rcases hg with hg | hg
    · rcases mem_afoot.mp hg with hg | ⟨f', hf', hasks⟩
      · exact hreceive.accounts g (.inl (mem_afoot.mpr (.inl hg)))
      · rcases eq_or_mem_erase f hf' with rfl | hf'
        · refine .inl (mem_afoot.mpr (.inl (List.mem_append_left _ ?_)))
          exact Option.mem_toList.mpr hasks
        · exact hreceive.accounts g (.inl (mem_afoot.mpr (.inr ⟨f', hf', hasks⟩)))
    · exact hreceive.accounts g (.inr hg)
  · rcases hreceive.afoot g hg with hg | hasks
    · rcases mem_afoot.mp hg with hg | ⟨f', hf', hasks⟩
      · exact .inl (mem_afoot.mpr (.inl hg))
      · exact .inl (mem_afoot.mpr (.inr ⟨f', List.mem_of_mem_erase hf', hasks⟩))
    · exact .inl (mem_afoot.mpr (.inr ⟨f, hf, hasks⟩))

theorem lose_grows (r : Remote) (f : Flight) : Grows (fun _ => False) r (r.lose f) := by
  refine ⟨rfl, fun q hq => ?_, fun g hg => ?_, fun g hg => ?_⟩
  · rcases hq with ⟨f', hf', rfl⟩ | hq | hq
    · rcases eq_or_mem_erase f hf' with rfl | hf'
      · exact .inr (.inr List.mem_cons_self)
      · exact .inl ⟨f', hf', rfl⟩
    · exact .inr (.inl hq)
    · exact .inr (.inr (List.mem_cons_of_mem f.parcel hq))
  · rcases hg with hg | hg | ⟨q, hq, hasks⟩
    · rcases mem_afoot.mp hg with hg | ⟨f', hf', hasks⟩
      · exact .inl (mem_afoot.mpr (.inl hg))
      · rcases eq_or_mem_erase f hf' with rfl | hf'
        · exact .inr (.inr ⟨f'.parcel, List.mem_cons_self, hasks⟩)
        · exact .inl (mem_afoot.mpr (.inr ⟨f', hf', hasks⟩))
    · exact .inr (.inl hg)
    · exact .inr (.inr ⟨q, List.mem_cons_of_mem f.parcel hq, hasks⟩)
  · rcases mem_afoot.mp hg with hg | ⟨f', hf', hasks⟩
    · exact .inl (mem_afoot.mpr (.inl hg))
    · exact .inl (mem_afoot.mpr (.inr ⟨f', List.mem_of_mem_erase hf', hasks⟩))

theorem depart_grows (r : Remote) (p : Parcel) :
    Grows (fun g => p.asks = some g) r (r.depart p) := by
  refine ⟨rfl, fun q hq => ?_, fun g hg => ?_, fun g hg => ?_⟩
  · exact hq.imp_left fun ⟨f, hf, heq⟩ => ⟨f, List.mem_cons_of_mem _ hf, heq⟩
  · rcases hg with hg | hg
    · rcases mem_afoot.mp hg with hg | ⟨f, hf, hasks⟩
      · exact .inl (mem_afoot.mpr (.inl hg))
      · exact .inl (mem_afoot.mpr (.inr ⟨f, List.mem_cons_of_mem _ hf, hasks⟩))
    · exact .inr hg
  · rcases mem_afoot.mp hg with hg | ⟨f, hf, hasks⟩
    · exact .inl (mem_afoot.mpr (.inl hg))
    · rcases List.mem_cons.mp hf with rfl | hf
      · exact .inr hasks
      · exact .inl (mem_afoot.mpr (.inr ⟨f, hf, hasks⟩))

theorem observe_grows (heard : List Parcel) (r : Remote) {a : Action} (ha : a.boundId = none) :
    Grows (fun g => a.asks = some g) r (r.observe heard a) := by
  unfold observe
  split
  · exact depart_grows r _
  · split
    · exact receive_grows r _
    · exact .refl _ r
  · cases ha
  · exact (connection_grows r _ _).mono fun _ h => h.elim
  · split_ifs
    · exact (connection_grows r _ _).mono fun _ h => h.elim
    · exact .refl _ r
  · exact .refl _ r

/-- A list of actions without a bind. -/
theorem follow_grows (heard : List Parcel) {N : Grant → Prop} {t : List Action}
    (ht : ∀ a ∈ t, a.boundId = none ∧ ∀ g, a.asks = some g → N g) (r : Remote) :
    Grows N r (r.follow heard t) := by
  induction t generalizing r with
  | nil => exact .refl N r
  | cons a t ih =>
    have ha := ht a List.mem_cons_self
    exact ((observe_grows heard r ha.1).mono ha.2).trans
      (ih (fun b hb => ht b (List.mem_cons_of_mem a hb)) _)

theorem follow_append (heard : List Parcel) (r : Remote) (t t' : List Action) :
    r.follow heard (t ++ t') = (r.follow heard t).follow heard t' :=
  List.foldl_append

theorem after_eq {heard : List Parcel} {r : Remote} {d d' : SessionDriver} {t : List Action}
    (ht : d'.trace = d.trace ++ t) : r.after heard d d' = r.follow heard t := by
  rw [after, ht, List.drop_left]

theorem after_self (heard : List Parcel) (r : Remote) (d : SessionDriver) : r.after heard d d = r :=
  after_eq (List.append_nil _).symm

theorem after_trans {P Q : Action → Prop} {heard : List Parcel} {r : Remote}
    {d d' d'' : SessionDriver} (h : Extends P d.trace d'.trace)
    (h' : Extends Q d'.trace d''.trace) :
    r.after heard d d'' = (r.after heard d d').after heard d' d'' := by
  obtain ⟨t, ht, -⟩ := h
  obtain ⟨t', ht', -⟩ := h'
  rw [after_eq ht, after_eq ht', after_eq (by rw [ht', ht, List.append_assoc]), follow_append]

/-- A request that the transport takes goes on its way, and is not forgotten. -/
theorem follow_taken (heard : List Parcel) {t : List Action} (ht : ∀ a ∈ t, a.boundId = none)
    {request : ControlRequest} {kind : PendingKind} {parameters : String}
    (hin : .control request (some kind) parameters none ∈ t) (r : Remote) :
    (r.follow heard t).Made ⟨request, kind⟩ ∧
      ∀ g, Parcel.asks ⟨request, kind⟩ = some g → (r.follow heard t).Accounts g := by
  obtain ⟨before, later, rfl⟩ := List.append_of_mem hin
  have hgrows := follow_grows heard (N := fun _ => True) (t := later)
    (fun a ha => ⟨ht a (List.mem_append_right _ (List.mem_cons_of_mem _ ha)), fun _ _ => trivial⟩)
    ((r.follow heard before).observe heard (.control request (some kind) parameters none))
  rw [follow_append]
  refine ⟨hgrows.made _ (.inl ⟨_, List.mem_cons_self, rfl⟩),
    fun g hg => hgrows.accounts g (.inl ?_)⟩
  exact mem_afoot.mpr (.inr ⟨_, List.mem_cons_self, hg⟩)

/-- Actions that nobody on the network notices. -/
theorem follow_eq_self {heard : List Parcel} {t : List Action}
    (ht : ∀ a ∈ t, ∀ r : Remote, r.observe heard a = r) (r : Remote) : r.follow heard t = r := by
  induction t generalizing r with
  | nil => rfl
  | cons a t ih =>
    rw [follow, List.foldl_cons, ht a List.mem_cons_self, ← follow]
    exact ih (fun b hb => ht b (List.mem_cons_of_mem a hb)) r

/-- The connection stays, no request is lost and no subscription ended, and what goes on its way
goes on this connection. -/
structure Holds (r r' : Remote) : Prop where
  shares : r'.shares = r.shares
  connection : r'.connection = r.connection
  lost : r'.lost = r.lost
  ended : r'.ended = r.ended
  flying : ∀ f ∈ r'.flying, f ∈ r.flying ∨ f.connection = r.connection

theorem Holds.refl (r : Remote) : Holds r r := ⟨rfl, rfl, rfl, rfl, fun _ hf => .inl hf⟩

theorem Holds.trans {r r' r'' : Remote} (h : Holds r r') (h' : Holds r' r'') : Holds r r'' where
  shares := h'.shares.trans h.shares
  connection := h'.connection.trans h.connection
  lost := h'.lost.trans h.lost
  ended := h'.ended.trans h.ended
  flying := fun f hf => by
    rcases h'.flying f hf with hf | hf
    · exact h.flying f hf
    · exact .inr (hf.trans h.connection)

/-- What goes on its way is in flight. -/
theorem Holds.isLive {r r' : Remote} (h : Holds r r') {f : Flight} (hf : f ∈ r'.flying) :
    r'.isLive f = true ∨ f ∈ r.flying ∧ r.isLive f = false := by
  cases hlive : r.isLive f with
  | true => exact .inl (by rw [Remote.isLive, h.shares, h.connection, ← Remote.isLive, hlive])
  | false =>
    rcases h.flying f hf with hf | hf
    · exact .inr ⟨hf, rfl⟩
    · exact .inl (isLive_of_connection (hf.trans h.connection.symm))

/-- Asking for subscriptions loses no request and ends no subscription. -/
theorem follow_asking (heard : List Parcel) {t : List Action} (ht : ∀ a ∈ t, a.OnlyAsks)
    (r : Remote) : Holds r (r.follow heard t) := by
  induction t generalizing r with
  | nil => exact .refl r
  | cons a t ih =>
    have hobserve : Holds r (r.observe heard a) := by
      obtain ⟨hbound, hloop, hasks⟩ := ht a List.mem_cons_self
      unfold observe
      split
      · refine ⟨rfl, rfl, rfl, rfl, fun f hf => ?_⟩
        rcases List.mem_cons.mp hf with rfl | hf
        · exact .inr rfl
        · exact .inl hf
      · rename_i request kind ps error
        split
        · obtain ⟨g, hg⟩ := Option.isSome_iff_exists.mp (hasks request kind ps _ rfl)
          refine ⟨rfl, rfl, rfl, ?_, fun _ hf => .inl hf⟩
          simp [receive, Parcel.ends_of_asks hg]
        · exact .refl r
      · cases hbound
      · exact absurd trivial hloop
      · exact absurd trivial hloop
      · exact .refl r
    exact hobserve.trans (ih (fun b hb => ht b (List.mem_cons_of_mem a hb)) (r.observe heard a))

end Remote

theorem Action.IsReport.observe {a : Action} (h : a.IsReport) (heard : List Parcel) (r : Remote) :
    r.observe heard a = r := by
  cases a with
  | event e => cases e <;> first | rfl | cases h
  | control | close | openStream => cases h
  | _ => rfl

/-- What the loop does goes unnoticed, but that it closes a connection and opens the next one. -/
theorem Action.IsLoop.observe {a : Action} (h : a.IsLoop) (heard : List Parcel) (r : Remote) :
    ∃ connection down, r.observe heard a = { r with connection := connection, down := down } := by
  cases a with
  | event e =>
    cases e with
    | unbound | closed => exact ⟨r.connection, r.down, rfl⟩
    | _ => cases h
  | close => exact ⟨_, _, rfl⟩
  | openStream request =>
    rw [Remote.observe]
    split_ifs
    · exact ⟨_, _, rfl⟩
    · exact ⟨r.connection, r.down, rfl⟩
  | _ => cases h

theorem Remote.follow_loop (heard : List Parcel) {t : List Action} (ht : ∀ a ∈ t, a.IsLoop)
    (r : Remote) :
    ∃ connection down, r.follow heard t = { r with connection := connection, down := down } := by
  induction t generalizing r with
  | nil => exact ⟨r.connection, r.down, rfl⟩
  | cons a t ih =>
    obtain ⟨connection, down, hone⟩ := (ht a List.mem_cons_self).observe heard r
    obtain ⟨connection', down', hrest⟩ := ih (fun b hb => ht b (List.mem_cons_of_mem a hb))
      (r.observe heard a)
    refine ⟨connection', down', ?_⟩
    rw [follow, List.foldl_cons, ← follow, hrest, hone]

/-! ## The driver with its surroundings -/

/-- A driver, what is beyond its transport, and the keys its caller subscribed with. -/
structure Exchange where
  drive : Drive
  remote : Remote
  asked : List SubscriptionKey
  deriving DecidableEq

/-- What happens next: the driver takes a turn, and the requests in `heard` reach the server though
their send reports an error; a request on its way arrives, or is lost; or the transport replaces a
stream connection that was to be used again, which the driver does not notice. -/
inductive Happening
  | turn (input : Input) (heard : List Parcel)
  | arrive (f : Flight)
  | lose (f : Flight)
  | sever
  deriving DecidableEq

namespace Exchange

def step (w : Exchange) : Happening → Option Exchange
  | .turn input heard => (Drive.step w.drive input).map fun drive =>
      ⟨drive, w.remote.after heard w.drive.driver drive.driver, subscribedKeys [input] ++ w.asked⟩
  | .arrive f => if f ∈ w.remote.flying then some { w with remote := w.remote.arrive f } else none
  | .lose f => if f ∈ w.remote.flying then some { w with remote := w.remote.lose f } else none
  | .sever => some { w with remote := w.remote.sever w.remote.down }

def start (properties : TransportProperties) (options : SessionOptions) (seed : UInt64)
    (now : ℕ) : Exchange :=
  ⟨Drive.start properties options seed now, .new properties.controlSharesStream none, []⟩

end Exchange

end Lightstreamer.Session
