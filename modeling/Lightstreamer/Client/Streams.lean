import Lightstreamer.Client.Tasks

/-!
# What the callers receive

Over any run of a client's tasks, with any interleaving of the driver, the router, the callers and
the task that issues unsubscriptions, every stream has been given exactly what the events that the
router delivered tell it, up to the event that ends it (`stream_events`). The router delivers what
it takes, but for an event that an ordered stop finds waiting for room, which is the last it takes.
`Streamed` is the invariant of one key in every run: its `Subscribe` is under way at most once, the
driver knows nothing of it before the turn that takes it on (`Unasked`), and its stream is where
what the router heard leaves it (`Router.Fed`), once its registration was taken.

`Tracked` is what holds besides as long as no entry of the key is forgotten or lapses and no stop
discards the event that ends its stream. `streams_agree` is what follows for the streams and the
registry, and `streams_disagree` what an entry that is forgotten or lapses does to them.
-/

namespace Lightstreamer.Client

open Lightstreamer.Foundations Lightstreamer.Protocol Lightstreamer.Subscription
open Lightstreamer.Session hiding SessionEvent

/-- A longer history gives a stream more of the same. -/
theorem untilTerminal_more (told more : List SubscriptionEvent) :
    untilTerminal told <+: untilTerminal (told ++ more) := by
  by_cases h : Unended told
  · rw [untilTerminal_append h, untilTerminal_of_unended h]
    exact List.prefix_append _ _
  · exact ⟨[], (List.append_nil _).trans (untilTerminal_append_of_ended h more).symm⟩

/-- A key that was not asked for stays so, whatever the driver does. -/
theorem step_unasked {key : SubscriptionKey} {s s' : Drive} {i : Input}
    (h : Unasked key s.driver) (hsubscribe : ∀ spec, i.wake ≠ .command (.subscribe key spec))
    (hstep : Drive.step s i = some s') : Unasked key s'.driver := by
  have hnone : ∀ entry, entry ∉ s.driver.registry.entries.get? key := fun entry he => by
    have hwants := h.registry
    rw [wants, Option.mem_def.1 he] at hwants
    cases hwants
  refine (step_minds hsubscribe (fun hforgets => ?_) (fun hlapses => ?_) hstep).unasked h
  · obtain ⟨-, entry, he, -⟩ := hforgets
    exact hnone entry he
  · obtain ⟨-, entry, he, -⟩ := hlapses
    exact hnone entry he

/-- A stream that was dropped is given nothing. -/
theorem of_feed {stop : Bool} {held : Option Unit × Option (Channel SubscriptionEvent)}
    {event : Option SubscriptionEvent} {c : Channel SubscriptionEvent} (hdropped : c.dropped = true)
    (h : (Router.feed stop held event).2 = some c) : held.2 = some c := by
  obtain ⟨registered, stream⟩ := held
  cases event with
  | none => exact h
  | some event =>
    cases registered with
    | none => exact h
    | some _ =>
      obtain ⟨before, rfl, hdeliver⟩ := Option.map_eq_some_iff.1 h
      unfold Channel.deliver at hdeliver
      split_ifs at hdeliver with hbefore
      · exact congrArg some hdeliver
      · exact congrArg some hdeliver
      · rw [← hdeliver] at hdropped
        exact absurd hdropped hbefore

namespace Tasks

/-! ## Where a key stands -/

/-- The keys whose `Subscribe` is under way to the driver, or was taken by it. -/
def asked (w : Tasks) : List SubscriptionKey :=
  w.calls.map Prod.fst ++ (w.mailbox.flatMap SessionCommand.subscribed ++ w.subscribed)

/-- The events that the router took. -/
def heard (w : Tasks) : List Session.SessionEvent :=
  (channelled w.drive.driver.trace).take w.handled

/-- The events that the router took and delivered: what a stop discards is the last it takes. -/
def delivered (w : Tasks) : List Session.SessionEvent :=
  if w.router.stop then w.heard.dropLast else w.heard

/-- The commands about a key that the router has yet to take. -/
def concerning (w : Tasks) (key : SubscriptionKey) : List RouterCommand :=
  w.commands.filter (·.id = key)

/-- The caller holds the stream of the key. -/
def Held (w : Tasks) (key : SubscriptionKey) : Prop :=
  (w.router.streams.get? key).map Channel.dropped = some false

/-- The registration of the key is still to come, or its stream is where it should be. -/
def InStep (w : Tasks) (key : SubscriptionKey) : Prop :=
  w.concerning key = [.register key] ∧ w.router.streams.get? key = some .new ∧
      told key w.heard = [] ∨
    w.concerning key = [] ∧ w.router.Fed key (told key w.heard) (told key w.delivered)

/-- The keys that are asked for are distinct and below the next one. -/
structure Numbered (w : Tasks) : Prop where
  distinct : w.asked.Nodup
  below : ∀ k ∈ w.asked, k < w.nextKey

/-- What holds of a key in every state. -/
structure Streamed (key : SubscriptionKey) (w : Tasks) : Prop where
  numbered : w.Numbered
  fresh : w.nextKey ≤ key → w.router.streams.get? key = none ∧ w.concerning key = []
  unasked : key ∉ w.subscribed → Unasked key w.drive.driver
  handled : w.handled ≤ (channelled w.drive.driver.trace).length
  stream : w.Held key → w.InStep key
  given : ∀ c, w.router.streams.get? key = some c →
    c.events <+: untilTerminal (told key w.delivered)

/-- A move that leaves alone the driver, what it was asked for, and what the router heard. -/
structure Aside (w w' : Tasks) : Prop where
  drive : w'.drive = w.drive
  subscribed : w'.subscribed = w.subscribed
  handled : w'.handled = w.handled
  stop : w'.router.stop = w.router.stop

variable {key : SubscriptionKey} {w w' : Tasks} {move : Move}

theorem Aside.heard (h : Aside w w') : w'.heard = w.heard := by
  rw [Tasks.heard, h.drive, h.handled, Tasks.heard]

theorem Aside.delivered (h : Aside w w') : w'.delivered = w.delivered := by
  rw [Tasks.delivered, h.heard, h.stop, Tasks.delivered]

/-- The keys that are asked for stay distinct and below the next one. -/
theorem Numbered.of_subperm (h : Numbered w) (hasked : w'.asked.Subperm w.asked)
    (hnext : w.nextKey ≤ w'.nextKey) : Numbered w' := by
  refine ⟨?_, fun k hk => (h.below k (hasked.subset hk)).trans_le hnext⟩
  obtain ⟨l, hperm, hsublist⟩ := hasked
  exact hperm.nodup_iff.1 (hsublist.nodup h.distinct)

/-- A command to the router changes nothing but the commands. -/
theorem ask_eq (key : SubscriptionKey) (w : Tasks) (c : RouterCommand) :
    ∃ commands, w.ask c = { w with commands := commands } ∧
      commands.filter (·.id = key) =
        w.concerning key ++ if w.routing ∧ c.id = key then [c] else [] := by
  unfold ask concerning
  split_ifs with hrouting hc hc
  · exact ⟨_, rfl, by simp [hc.2]⟩
  · exact ⟨_, rfl, by simpa using fun h => hc ⟨hrouting, h⟩⟩
  · exact absurd hc.1 hrouting
  · exact ⟨_, rfl, (List.append_nil _).symm⟩

/-- `connect` returns without a word to the tasks. -/
theorem finish_eq (w : Tasks) (result : Except ConnectError BoundInfo) :
    ∃ session, w.finish result = { w with
      router := { w.router with session := session }, connecting := .returned result } := by
  cases result with
  | ok => exact ⟨w.router.session, rfl⟩
  | error => exact ⟨{ w.router.session with dropped := true }, rfl⟩

/-- What the router heard stays as it was while the driver goes on. -/
theorem take_handled {drive : Drive} (h : w.handled ≤ (channelled w.drive.driver.trace).length)
    (hgrows : Extends (fun _ => True) w.drive.driver.trace drive.driver.trace) :
    (channelled drive.driver.trace).take w.handled = w.heard ∧
      w.handled ≤ (channelled drive.driver.trace).length := by
  obtain ⟨t, ht, -⟩ := hgrows
  have happend : channelled drive.driver.trace =
      channelled w.drive.driver.trace ++ channelled t := by
    rw [ht, channelled, List.filterMap_append]
    rfl
  rw [happend, List.length_append]
  exact ⟨List.take_append_of_le_length h, h.trans (Nat.le_add_right _ _)⟩

/-- The history of the router after it took one more event. -/
theorem take_next {event : Session.SessionEvent} (h : w.next = some event) :
    (channelled w.drive.driver.trace).take (w.handled + 1) = w.heard ++ [event] := by
  rw [List.take_add_one, (next_eq_some h).2.2.2]
  rfl

/-- What is delivered of it. -/
theorem dropLast_next (stop : Bool) (event : Session.SessionEvent) :
    (if stop then (w.heard ++ [event]).dropLast else w.heard ++ [event]) =
      w.heard ++ if stop then [] else [event] := by
  cases stop <;> simp

theorem told_append (key : SubscriptionKey) (heard more : List Session.SessionEvent) :
    told key (heard ++ more) = told key heard ++ told key more :=
  List.filterMap_append

theorem told_singleton (key : SubscriptionKey) (event : Session.SessionEvent) :
    told key [event] = (tells key event).toList := by
  cases h : tells key event <;> simp [told, h]

theorem delivered_isInitial (w : Tasks) : w.delivered <+: w.heard := by
  unfold delivered
  split_ifs
  · exact List.dropLast_prefix _
  · exact List.prefix_refl _

namespace Streamed

/-- A move that leaves alone the driver, and what the router holds of the key and is to do. -/
theorem of_aside (h : Streamed key w) (haside : Aside w w') (hnumbered : Numbered w')
    (hnext : w.nextKey ≤ w'.nextKey) (hheld : w'.router.held key = w.router.held key)
    (hconcerning : w'.concerning key = w.concerning key) : Streamed key w' := by
  have hstream : w'.router.streams.get? key = w.router.streams.get? key := congrArg Prod.snd hheld
  refine ⟨hnumbered, fun hkey => ?_, by rw [haside.subscribed, haside.drive]; exact h.unasked, by
    rw [haside.drive, haside.handled]; exact h.handled, fun hHeld => ?_, fun c hc => ?_⟩
  · rw [hstream, hconcerning]
    exact h.fresh (hnext.trans hkey)
  · rw [Held, hstream] at hHeld
    rw [InStep, hconcerning, hstream, haside.heard, haside.delivered, Router.Fed, hheld]
    exact h.stream hHeld
  · rw [haside.delivered]
    exact h.given c (hstream ▸ hc)

/-- A key that was not taken yet was told nothing. -/
theorem told_heard (h : Streamed key w) (hkey : key ∉ w.subscribed) : told key w.heard = [] := by
  have hsublist : (told key w.heard).Sublist (told key (emitted w.drive.driver.trace)) :=
    ((List.take_sublist _ _).trans (channelled_sublist _)).filterMap _
  rw [(h.unasked hkey).trace] at hsublist
  exact List.sublist_nil.1 hsublist

/-- A move that asks for nothing and leaves the streams of the subscriptions alone. -/
theorem of_idle (h : Streamed key w) (haside : Aside w w') (hasked : w'.asked.Subperm w.asked)
    (hnext : w.nextKey ≤ w'.nextKey) (hheld : w'.router.held key = w.router.held key)
    (hcommands : w'.commands = w.commands) : Streamed key w' :=
  h.of_aside haside (h.numbered.of_subperm hasked hnext) hnext hheld (by
    rw [concerning, hcommands, concerning])

/-! ## The moves of the callers -/

/-- The stream of a new key. -/
theorem subscribes (h : Streamed key w) (spec : SubscriptionSpec) : Streamed key { w with
    nextKey := w.nextKey + 1
    router := { w.router with streams := w.router.streams.insert w.nextKey .new }
    commands := w.commands ++ [.register w.nextKey]
    calls := w.calls ++ [(w.nextKey, spec)] } := by
  have hnew : w.nextKey ∉ w.asked := fun hk => lt_irrefl _ (h.numbered.below _ hk)
  have hperm : (asked { w with calls := w.calls ++ [(w.nextKey, spec)] }).Perm
      (w.nextKey :: w.asked) := by
    rw [asked, asked, List.map_append, List.append_assoc]
    exact List.perm_middle
  have hnumbered : Numbered { w with
      nextKey := w.nextKey + 1
      router := { w.router with streams := w.router.streams.insert w.nextKey .new }
      commands := w.commands ++ [.register w.nextKey]
      calls := w.calls ++ [(w.nextKey, spec)] } := by
    refine ⟨hperm.nodup_iff.2 (List.nodup_cons.2 ⟨hnew, h.numbered.distinct⟩), fun k hk => ?_⟩
    rcases List.mem_cons.1 (hperm.mem_iff.1 hk) with rfl | hk
    · exact Nat.lt_succ_self _
    · exact (h.numbered.below k hk).trans (Nat.lt_succ_self _)
  by_cases hkey : w.nextKey = key
  · subst hkey
    obtain ⟨-, hconcerning⟩ := h.fresh le_rfl
    have htold : told w.nextKey w.heard = [] := h.told_heard fun hk =>
      hnew (List.mem_append_right _ (List.mem_append_right _ hk))
    have hstream : (w.router.streams.insert w.nextKey .new).get? w.nextKey =
        some (Channel.new : Channel SubscriptionEvent) := by simp
    refine ⟨hnumbered, fun hle => absurd hle (not_le.2 (Nat.lt_succ_self _)), h.unasked, h.handled,
      fun _ => .inl ⟨?_, hstream, htold⟩, fun c hc => ?_⟩
    · rw [concerning, List.filter_append]
      exact (congrArg (· ++ _) hconcerning).trans (by simp [RouterCommand.id])
    · cases hstream.symm.trans hc
      exact List.nil_prefix
  · refine h.of_aside ⟨rfl, rfl, rfl, rfl⟩ hnumbered (Nat.le_succ _) ?_ ?_
    · simp [Router.held, Ne.symm hkey]
    · simp [concerning, RouterCommand.id, hkey]

/-- A stream is given up: nothing more is put into it. -/
theorem close (h : Streamed key w) {calls : List (SubscriptionKey × SubscriptionSpec)}
    (hcalls : calls.Sublist w.calls) {c : RouterCommand} (hc : c.id = key → key < w.nextKey) :
    Streamed key (({ w with calls := calls }.closeStream c.id).ask c) := by
  obtain ⟨commands, hask, hcommands⟩ :=
    ask_eq key ({ w with calls := calls }.closeStream c.id) c
  rw [hask]
  have hnumbered : Numbered { w with calls := calls } :=
    h.numbered.of_subperm ((hcalls.map Prod.fst).append_right _).subperm le_rfl
  by_cases hkey : c.id = key
  · refine ⟨⟨hnumbered.distinct, hnumbered.below⟩, fun hle => absurd (hc hkey) (not_lt.2 hle),
      h.unasked, h.handled, fun hheld => ?_, fun channel hchannel => ?_⟩
    · simp only [Held, closeStream, hkey, OrdMap.get?_modify, if_true, Option.map_map] at hheld
      cases hs : w.router.streams.get? key <;> simp [hs] at hheld
    · simp only [closeStream, hkey, OrdMap.get?_modify, if_true] at hchannel
      obtain ⟨before, hbefore, rfl⟩ := Option.map_eq_some_iff.1 hchannel
      exact h.given before hbefore
  · refine h.of_aside ⟨rfl, rfl, rfl, rfl⟩ ⟨hnumbered.distinct, hnumbered.below⟩ le_rfl ?_ ?_
    · simp [Router.held, closeStream, Ne.symm hkey]
    · refine hcommands.trans ?_
      rw [if_neg fun hc => hkey hc.2]
      exact List.append_nil _

/-! ## The turns of the tasks -/

/-- The driver takes a turn, and a command with it or none. -/
theorem turns (h : Streamed key w) {i : Input} {drive : Drive} {mailbox : List SessionCommand}
    {subscribed : List SubscriptionKey} (hdrive : w.drive.step i = some drive)
    (hperm : (mailbox.flatMap SessionCommand.subscribed ++ subscribed).Perm
      (w.mailbox.flatMap SessionCommand.subscribed ++ w.subscribed))
    (hsubscribed : key ∉ subscribed →
      key ∉ w.subscribed ∧ ∀ spec, i.wake ≠ .command (.subscribe key spec)) :
    Streamed key { w with drive := drive, mailbox := mailbox, subscribed := subscribed } := by
  obtain ⟨hheard, hle⟩ := take_handled h.handled (step_grows hdrive)
  have hdelivered : delivered { w with
      drive := drive, mailbox := mailbox, subscribed := subscribed } = w.delivered := by
    rw [delivered, heard, hheard, delivered]
  refine ⟨h.numbered.of_subperm (hperm.append_left _).subperm le_rfl, h.fresh, fun hkey => ?_, hle,
    fun hHeld => ?_, fun c hc => ?_⟩
  · obtain ⟨hnew, hsubscribe⟩ := hsubscribed hkey
    exact step_unasked (h.unasked hnew) hsubscribe hdrive
  · have hinStep := h.stream hHeld
    rw [InStep, ← hheard, ← hdelivered] at hinStep
    exact hinStep
  · rw [hdelivered]
    exact h.given c hc

/-- A registration is taken before anything was heard for its stream. -/
theorem obeys (h : Streamed key w) {c : RouterCommand} {commands : List RouterCommand}
    (hcommands : w.commands = c :: commands) :
    Streamed key { w with router := w.router.onCommand c, commands := commands } := by
  have hstreams : (w.router.onCommand c).streams = w.router.streams := by cases c <;> rfl
  have hstop : (w.router.onCommand c).stop = w.router.stop := by cases c <;> rfl
  have haside : Aside w { w with router := w.router.onCommand c, commands := commands } :=
    ⟨rfl, rfl, rfl, hstop⟩
  by_cases hc : c.id = key
  · have hconcerning : w.concerning key = c :: commands.filter (·.id = key) := by
      simp [concerning, hcommands, hc]
    refine ⟨⟨h.numbered.distinct, h.numbered.below⟩, fun hle => ?_, h.unasked, h.handled,
      fun hheld => ?_, fun channel hchannel => ?_⟩
    · have hnone := (h.fresh hle).2
      rw [hconcerning] at hnone
      cases hnone
    · rw [Held, hstreams] at hheld
      obtain ⟨hregister, hstream, htold⟩ | ⟨hnone, -⟩ := h.stream hheld
      · rw [hconcerning, List.cons.injEq] at hregister
        obtain ⟨rfl, hrest⟩ := hregister
        have hnothing : told key w.delivered = [] :=
          List.prefix_nil.1 (htold ▸ w.delivered_isInitial.filterMap _)
        refine .inr ⟨hrest, ?_⟩
        rw [haside.heard, haside.delivered, htold, hnothing]
        simp [Router.Fed, Router.held, Router.onCommand, hstream, Unended, untilTerminal,
          Channel.new]
      · rw [hconcerning] at hnone
        cases hnone
    · rw [haside.delivered]
      exact h.given channel (hstreams ▸ hchannel)
  · refine h.of_aside haside ⟨h.numbered.distinct, h.numbered.below⟩ le_rfl ?_ ?_
    · have hsubscriptions : (w.router.onCommand c).subscriptions.get? key =
          w.router.subscriptions.get? key := by
        cases c <;> simpa [Router.onCommand] using fun h => absurd h.symm hc
      rw [Router.held, hsubscriptions, hstreams]
      rfl
    · simp [concerning, hcommands, hc]

/-- **The router takes an event**, and a stop discards it or not. -/
theorem routes (h : Streamed key w) {stop : Bool} {event : Session.SessionEvent}
    (hnext : w.next = some event) : Streamed key { w with
      router := ({ w.router with stop := stop }.onSessionEvent event).2
      handled := w.handled + 1
      routing := !({ w.router with stop := stop }.onSessionEvent event).1 } := by
  obtain ⟨-, hcommands, hstop, hevent⟩ := next_eq_some hnext
  have hconcerning : w.concerning key = [] := by rw [concerning, hcommands]; rfl
  let r : Router := { w.router with stop := stop }
  have hheld : (r.onSessionEvent event).2.held key =
      Router.feed stop (w.router.held key) (tells key event) := r.onSessionEvent_held key event
  have hdropped : ((r.onSessionEvent event).2.streams.get? key).map Channel.dropped =
      (w.router.streams.get? key).map Channel.dropped :=
    (congrArg (fun p => p.2.map Channel.dropped) hheld).trans (Router.feed_dropped _ _ _)
  have hbefore : w.delivered = w.heard := by rw [delivered, hstop]; rfl
  have hdelivered : delivered { w with
      router := (r.onSessionEvent event).2
      handled := w.handled + 1
      routing := !(r.onSessionEvent event).1 } = w.heard ++ if stop then [] else [event] := by
    rw [← dropLast_next, ← take_next hnext, delivered, (r.onSessionEvent_rest event).2]
    rfl
  have hgiven : told key (w.heard ++ if stop then [] else [event]) =
      told key w.heard ++ if stop then [] else (tells key event).toList := by
    rw [told_append]
    cases stop
    · exact congrArg _ (told_singleton key event)
    · rfl
  have hstream : ((r.onSessionEvent event).2.streams.get? key).map Channel.dropped = some false →
      (r.onSessionEvent event).2.Fed key (told key w.heard ++ (tells key event).toList)
        (told key w.heard ++ if stop then [] else (tells key event).toList) := fun hHeld => by
    obtain ⟨hregister, -⟩ | ⟨-, hfed⟩ := h.stream (hdropped.symm.trans hHeld)
    · rw [hconcerning] at hregister
      cases hregister
    · rw [hbefore] at hfed
      have hfed' : r.Fed key (told key w.heard) (told key w.heard) := hfed
      exact hfed'.onSessionEvent event
  refine ⟨⟨h.numbered.distinct, h.numbered.below⟩, fun hle => ⟨?_, hconcerning⟩, h.unasked, ?_,
    fun hHeld => .inr ⟨hconcerning, ?_⟩, fun c hc => ?_⟩
  · have hnone := (h.fresh hle).1
    rw [hnone] at hdropped
    exact Option.map_eq_none_iff.1 hdropped
  · exact (List.getElem?_eq_some_iff.1 hevent).1
  · rw [hdelivered, heard, take_next hnext, hgiven, told_append, told_singleton]
    exact hstream hHeld
  · rw [hdelivered, hgiven]
    cases hc' : c.dropped with
    | true =>
      have hsame := of_feed hc' ((congrArg Prod.snd hheld).symm.trans hc)
      exact (hbefore ▸ h.given c hsame).trans (untilTerminal_more _ _)
    | false =>
      have hfed := hstream ((congrArg (Option.map Channel.dropped) hc).trans (congrArg some hc'))
      have hevents := hc.symm.trans (congrArg Prod.snd hfed)
      exact ⟨[], (List.append_nil _).trans (congrArg Channel.events (Option.some.inj hevents))⟩

/-- What is in a stream that its caller holds. -/
theorem events_eq (h : Streamed key w) {events : List SubscriptionEvent}
    (hstream : w.router.streams.get? key = some ⟨events, false⟩) :
    events = untilTerminal (told key w.delivered) := by
  have hheld : w.Held key := congrArg (Option.map Channel.dropped) hstream
  obtain ⟨-, hnew, htold⟩ | ⟨-, hfed⟩ := h.stream hheld
  · have hnothing : told key w.delivered = [] :=
      List.prefix_nil.1 (htold ▸ w.delivered_isInitial.filterMap _)
    cases hstream.symm.trans hnew
    rw [hnothing]
    rfl
  · have hevents := hstream.symm.trans (congrArg Prod.snd hfed)
    exact congrArg Channel.events (Option.some.inj hevents)

end Streamed

/-- The commands that wait and those that were taken, when the driver takes one. -/
theorem taken_perm {c : SessionCommand} {rest : List SessionCommand} (h : w.mailbox = c :: rest) :
    (rest.flatMap SessionCommand.subscribed ++ (w.subscribed ++ c.subscribed)).Perm
      (w.mailbox.flatMap SessionCommand.subscribed ++ w.subscribed) := by
  rw [h, List.flatMap_cons]
  refine List.perm_iff_count.2 fun k => ?_
  simp only [List.count_append]
  omega

theorem step_streamed (h : Streamed key w) (hstep : w.step move = some w') : Streamed key w' := by
  have hsend : ∀ {c : SessionCommand} (issuing : Issuing), c.subscribed = [] →
      Streamed key { w with mailbox := w.mailbox ++ [c], issuing := issuing } :=
    fun _ hc => h.of_idle ⟨rfl, rfl, rfl, rfl⟩ (List.Perm.of_eq (by simp [asked, hc])).subperm
      le_rfl rfl rfl
  have hidle : ∀ issuing, Streamed key { w with issuing := issuing } := fun _ =>
    h.of_idle ⟨rfl, rfl, rfl, rfl⟩ (.refl _) le_rfl rfl rfl
  have hfinish : ∀ result, Streamed key (w.finish result) := fun result => by
    obtain ⟨session, hfinish⟩ := w.finish_eq result
    rw [hfinish]
    exact h.of_idle ⟨rfl, rfl, rfl, rfl⟩ (.refl _) le_rfl rfl rfl
  cases step_does hstep with
  | waits => exact h.of_idle ⟨rfl, rfl, rfl, rfl⟩ (.refl _) le_rfl rfl rfl
  | ready => exact hfinish _
  | receives => exact h.of_idle ⟨rfl, rfl, rfl, rfl⟩ (.refl _) le_rfl rfl rfl
  | findsClosed => exact hfinish _
  | subscribes => exact h.subscribes _
  | subscribesLate => exact h.of_idle ⟨rfl, rfl, rfl, rfl⟩ (.refl _) (Nat.le_succ _) rfl rfl
  | @submits call c hc =>
    obtain ⟨hi, rfl⟩ := List.getElem?_eq_some_iff.1 hc
    have hperm := (List.getElem_cons_eraseIdx_perm hi).map Prod.fst
    refine h.of_idle ⟨rfl, rfl, rfl, rfl⟩ (List.perm_iff_count.2 fun k => ?_).subperm le_rfl rfl rfl
    have hcount := hperm.count_eq k
    simp only [asked, List.map_cons, List.count_cons, List.count_append, List.flatMap_append,
      List.flatMap_cons, List.flatMap_nil, SessionCommand.subscribed, List.count_nil] at hcount ⊢
    omega
  | @rollsBack call c hc =>
    have hmem : c.1 ∈ w.asked :=
      List.mem_append_left _ (List.mem_map_of_mem (List.mem_of_getElem? hc))
    exact h.close (List.eraseIdx_sublist _ _) (c := .unregister c.1) fun hkey =>
      hkey ▸ h.numbered.below _ hmem
  | sends hcommand => exact hsend w.issuing hcommand
  | takes hwake hmailbox hdrive =>
    refine h.turns hdrive (taken_perm hmailbox) fun hkey =>
      ⟨fun hold => hkey (List.mem_append_left _ hold), fun spec hspec => hkey ?_⟩
    rw [hwake] at hspec
    cases hspec
    exact List.mem_append_right _ List.mem_cons_self
  | turns hwake hdrive => exact h.turns hdrive (.refl _) fun hkey => ⟨hkey, fun spec => hwake _⟩
  | obeys _ hcommands => exact h.obeys hcommands
  | routes hnext => exact h.routes hnext
  | takesKey => exact h.of_idle ⟨rfl, rfl, rfl, rfl⟩ (.refl _) le_rfl rfl rfl
  | issues => exact hsend .idle rfl
  | fails => exact hidle _
  | stopsIssuing => exact hidle _
  | @drops k hheld =>
    refine h.close (.refl _) (c := .streamDropped k) fun hkey => not_le.1 fun hle => ?_
    obtain rfl : k = key := hkey
    rw [(h.fresh hle).1] at hheld
    cases hheld
  | dropsSession => exact h.of_idle ⟨rfl, rfl, rfl, rfl⟩ (.refl _) le_rfl rfl rfl
  | stops =>
    obtain ⟨ready, outcome, hfail⟩ := w.router.failReady_eq .disconnected
    rw [hfail]
    exact h.of_idle ⟨rfl, rfl, rfl, rfl⟩ (.refl _) le_rfl rfl rfl

theorem start_streamed (key : SubscriptionKey) (properties : TransportProperties)
    (options : SessionOptions) (seed : UInt64) (now capacity : ℕ) :
    Streamed key (start properties options seed now capacity) := by
  refine ⟨⟨.nil, fun _ hk => ?_⟩, fun _ => ⟨rfl, rfl⟩, fun _ => ⟨rfl, rfl, fun _ _ hp => ?_⟩,
    le_rfl, fun hheld => ?_, fun _ hc => ?_⟩
  · cases hk
  · cases hp
  · cases hheld
  · cases hc

variable {properties : TransportProperties} {options : SessionOptions} {seed : UInt64}
  {now capacity : ℕ} {moves : List Move}

theorem exec_streamed
    (hrun : exec step (start properties options seed now capacity) moves = some w) :
    Streamed key w :=
  exec_invariant (G := fun _ _ => True) (fun _ _ _ h _ hstep => step_streamed h hstep)
    (start_streamed key properties options seed now capacity) (guarded_true _ _ moves) hrun

/-- **What a stream was given**: in every run, what the events that the router delivered tell the
stream, in order and each once, up to the event that ends it; a stream that its caller dropped was
given a first part of that. -/
theorem stream_events
    (hrun : exec step (start properties options seed now capacity) moves = some w)
    {c : Channel SubscriptionEvent} (hstream : w.router.streams.get? key = some c) :
    c.events <+: untilTerminal (told key w.delivered) ∧
      (c.dropped = false → c.events = untilTerminal (told key w.delivered)) := by
  have h : Streamed key w := exec_streamed hrun
  exact ⟨h.given c hstream, fun hdropped => h.events_eq (hdropped ▸ hstream)⟩

/-- The server confirms the session, and `connect` returns. -/
def connects : List Move :=
  [.turn ⟨.opened, {}⟩, .turn ⟨.line "CONOK,S1,50000,5000,*", {}⟩, .poll, .route false, .receive,
    .poll]

/-- A caller subscribes, and the driver takes the `Subscribe`. -/
def asking : List Move :=
  [.subscribe (.new "items" "fields" .merge), .route false, .submit 0,
    .turn ⟨.command (.subscribe 1 (.new "items" "fields" .merge)), {}⟩]

/-- The caller unsubscribes, and keeps the stream. -/
def leaving : List Move := [.command (.unsubscribe 1), .turn ⟨.command (.unsubscribe 1), {}⟩]

/-- The server confirms a subscription and ends it, and the router takes what it is owed. -/
def ended : List Move :=
  connects ++ asking ++ .turn ⟨.line "SUBOK,1,1,1", {}⟩ :: leaving ++
    .turn ⟨.line "UNSUB,1", {}⟩ :: List.replicate 2 (.route false)

theorem stream_events_ended :
    ∃ w c, exec step (start ⟨true, false, false⟩ .default 1 0 8) ended = some w ∧
      w.router.streams.get? 1 = some c ∧ c.events <+: untilTerminal (told 1 w.delivered) ∧
        (c.dropped = false → c.events = untilTerminal (told 1 w.delivered)) := by
  have h : ∃ w c, exec step (start ⟨true, false, false⟩ .default 1 0 8) ended = some w ∧
      w.router.streams.get? 1 = some c := ⟨_, _, rfl, rfl⟩
  obtain ⟨w, c, h, hstream⟩ := h
  exact ⟨w, c, h, hstream, stream_events h hstream⟩

/-! ## The streams and the registry -/

/-- The event that the router takes next ends the stream of the key. -/
def EndsNext (key : SubscriptionKey) (w : Tasks) : Prop :=
  Unended (told key w.heard) ∧
    (w.next.bind (tells key)).map SubscriptionEvent.isTerminal = some true

instance (key : SubscriptionKey) (w : Tasks) : Decidable (EndsNext key w) :=
  inferInstanceAs (Decidable (_ ∧ _))

/-- A move that drops no entry of the key behind the back of its caller, and where no stop discards
the event that ends its stream. -/
def Open (key : SubscriptionKey) (w : Tasks) : Move → Prop
  | .turn input => ¬Forgets key w.drive input ∧ ¬Lapses key w.drive input
  | .route stop => stop = true → ¬EndsNext key w
  | _ => True

instance (key : SubscriptionKey) (w : Tasks) : DecidablePred (Open key w) := fun
  | .turn _ => inferInstanceAs (Decidable (_ ∧ _))
  | .route _ => inferInstanceAs (Decidable (_ → _))
  | .poll | .receive | .subscribe _ | .submit _ | .rollBack _ | .command _ | .takeKey | .issue
  | .stopIssuing | .dropStream _ | .dropSessionEvents | .stopRouter => isTrue trivial

/-- What holds of a key besides, while every move is an open one. -/
structure Tracked (key : SubscriptionKey) (w : Tasks) : Prop where
  streamed : Streamed key w
  driver : key ∈ w.subscribed → Told key w.drive.driver
  ends : Unended (told key w.delivered) → Unended (told key w.heard)

namespace Tracked

theorem of_aside (h : Tracked key w) (hstreamed : Streamed key w') (haside : Aside w w') :
    Tracked key w' := by
  refine ⟨hstreamed, ?_, ?_⟩
  · rw [haside.subscribed, haside.drive]
    exact h.driver
  · rw [haside.delivered, haside.heard]
    exact h.ends

/-- The driver's turn: a key is told of from the turn that takes its `Subscribe`. -/
theorem turn (h : Tracked key w) {i : Input} {drive : Drive} {mailbox : List SessionCommand}
    {subscribed : List SubscriptionKey} (hdrive : w.drive.step i = some drive)
    (hstreamed : Streamed key { w with
      drive := drive, mailbox := mailbox, subscribed := subscribed })
    (hdriver : key ∈ subscribed → Told key drive.driver) :
    Tracked key { w with drive := drive, mailbox := mailbox, subscribed := subscribed } := by
  obtain ⟨hheard, -⟩ := take_handled h.streamed.handled (step_grows hdrive)
  refine ⟨hstreamed, hdriver, ?_⟩
  rw [delivered, heard, hheard]
  exact h.ends

/-- A turn of the driver that takes no `Subscribe` of the key. -/
theorem told_of_step (h : Tracked key w) {i : Input} {drive : Drive}
    (hopen : Open key w (.turn i)) (hsubscribe : ∀ spec, i.wake ≠ .command (.subscribe key spec))
    (hdrive : w.drive.step i = some drive) (hkey : key ∈ w.subscribed) : Told key drive.driver :=
  (step_minds hsubscribe hopen.1 hopen.2 hdrive).told (h.driver hkey)

/-- The driver takes a command. -/
theorem takes (h : Tracked key w) {i : Input} {c : SessionCommand} {rest : List SessionCommand}
    {drive : Drive} (hopen : Open key w (.turn i)) (hwake : i.wake = .command c)
    (hmailbox : w.mailbox = c :: rest) (hdrive : w.drive.step i = some drive)
    (hkey : key ∈ w.subscribed ++ c.subscribed) : Told key drive.driver := by
  by_cases hc : ∃ spec, c = .subscribe key spec
  · obtain ⟨spec, rfl⟩ := hc
    have hnew : key ∉ w.subscribed := fun hk => by
      have hdistinct := (List.nodup_append.1 h.streamed.numbered.distinct).2.1
      rw [hmailbox, List.flatMap_cons] at hdistinct
      exact (List.nodup_append.1 hdistinct).2.2 key
        (List.mem_append_left _ List.mem_cons_self) key hk rfl
    exact step_told (h.streamed.unasked hnew) hwake hdrive
  · have hother : key ∉ c.subscribed := fun hk => by
      cases c with
      | subscribe k spec => exact hc ⟨spec, by rw [List.mem_singleton.1 hk]⟩
      | _ => cases hk
    refine h.told_of_step hopen (fun spec hspec => hc ⟨spec, ?_⟩) hdrive
      ((List.mem_append.1 hkey).resolve_right hother)
    rw [hwake] at hspec
    cases hspec
    rfl

end Tracked

/-- The router takes an event. When a stop discards it, that event did not end the stream. -/
theorem unended_next {stop : Bool} {event : Session.SessionEvent}
    (hopen : Open key w (.route stop)) (hnext : w.next = some event)
    (hended : Unended (told key (w.heard ++ if stop then [] else [event]))) :
    Unended (told key (w.heard ++ [event])) := by
  cases stop with
  | false => exact hended
  | true =>
    rw [if_pos rfl, List.append_nil] at hended
    have hends := hopen rfl
    rw [told_append, told_singleton, unended_append]
    refine ⟨hended, fun e he => Bool.not_eq_true _ ▸ fun hterminal => hends ⟨hended, ?_⟩⟩
    rw [hnext, Option.bind_some, Option.mem_toList.1 he]
    exact congrArg some hterminal

theorem step_tracked (h : Tracked key w) (hopen : Open key w move)
    (hstep : w.step move = some w') : Tracked key w' := by
  have hstreamed := step_streamed h.streamed hstep
  cases step_does hstep with
  | takes hwake hmailbox hdrive =>
    exact h.turn hdrive hstreamed (h.takes hopen hwake hmailbox hdrive)
  | turns hwake hdrive =>
    exact h.turn hdrive hstreamed (h.told_of_step hopen (fun spec => hwake _) hdrive)
  | obeys _ hcommands =>
    refine h.of_aside hstreamed ⟨rfl, rfl, rfl, ?_⟩
    rename_i command _ _
    cases command <;> rfl
  | @routes stop event hnext =>
    refine ⟨hstreamed, h.driver, ?_⟩
    rw [delivered, heard, take_next hnext, (Router.onSessionEvent_rest _ event).2, dropLast_next]
    exact unended_next hopen hnext
  | stops =>
    obtain ⟨ready, outcome, hfail⟩ := w.router.failReady_eq .disconnected
    exact h.of_aside hstreamed (hfail ▸ ⟨rfl, rfl, rfl, rfl⟩)
  | ready | findsClosed =>
    obtain ⟨session, hfinish⟩ := w.finish_eq _
    exact h.of_aside hstreamed (hfinish ▸ ⟨rfl, rfl, rfl, rfl⟩)
  | rollsBack | drops =>
    refine h.of_aside hstreamed ?_
    obtain ⟨commands, hask, -⟩ := ask_eq key _ _
    rw [hask]
    exact ⟨rfl, rfl, rfl, rfl⟩
  | _ => exact h.of_aside hstreamed ⟨rfl, rfl, rfl, rfl⟩

/-- The router has handled every event that the driver emitted. -/
def CaughtUp (w : Tasks) : Prop := w.handled = (emitted w.drive.driver.trace).length

/-- The key is in the driver's registry and its stream is open, or it has left the registry and the
last event of the stream is its one terminal event. -/
def Agrees (w : Tasks) (key : SubscriptionKey) (events : List SubscriptionEvent) : Prop :=
  wants w.drive.driver.registry key = true ∧ Unended events ∨
    wants w.drive.driver.registry key = false ∧
      ∃ front event, events = front ++ [event] ∧ event.isTerminal = true ∧ Unended front

theorem heard_of_caughtUp (h : Streamed key w) (hcaughtUp : w.CaughtUp) :
    w.heard = emitted w.drive.driver.trace := by
  have hsublist := channelled_sublist w.drive.driver.trace
  have hle := h.handled
  rw [CaughtUp] at hcaughtUp
  have heq : channelled w.drive.driver.trace = emitted w.drive.driver.trace :=
    hsublist.eq_of_length (le_antisymm hsublist.length_le (hcaughtUp ▸ hle))
  rw [heard, heq, hcaughtUp, List.take_length]

/-- **The streams and the registry agree.** Once the driver has taken the `Subscribe` of a key and
the router has handled every event that the driver emitted, a stream that its caller holds is open
while the key is in the registry, and has ended with one terminal event when it is not; in every run
in which no entry of the key is forgotten or lapses, and no ordered stop discards the event that
ends its stream. -/
theorem streams_agree {events : List SubscriptionEvent}
    (hopen : Guarded step (Open key) (start properties options seed now capacity) moves)
    (hrun : exec step (start properties options seed now capacity) moves = some w)
    (hsubscribed : key ∈ w.subscribed)
    (hheld : w.router.streams.get? key = some ⟨events, false⟩) (hcaughtUp : w.CaughtUp) :
    w.Agrees key events := by
  have htracked : Tracked key w := exec_invariant (fun _ _ _ h hG hstep => step_tracked h hG hstep)
    ⟨start_streamed key properties options seed now capacity, (by cases ·), id⟩ hopen hrun
  have htold := htracked.driver hsubscribed
  have hheard := heard_of_caughtUp htracked.streamed hcaughtUp
  rw [Told, ← hheard] at htold
  have hevents := htracked.streamed.events_eq hheld
  by_cases hunended : Unended (told key w.delivered)
  · rw [untilTerminal_of_unended hunended] at hevents
    exact .inl ⟨htold.2 (htracked.ends hunended), hevents ▸ hunended⟩
  · have hended : ¬Unended (told key w.heard) := fun h =>
      hunended fun e he => h e ((w.delivered_isInitial.filterMap _).subset he)
    refine .inr ⟨?_, hevents ▸ untilTerminal_of_ended hunended⟩
    rw [← Bool.not_eq_true]
    exact fun hwants => hended (htold.1 hwants)

theorem streams_agree_ended :
    ∃ w events, exec step (start ⟨true, false, false⟩ .default 1 0 8) ended = some w ∧
      w.router.streams.get? 1 = some ⟨events, false⟩ ∧ w.Agrees 1 events := by
  have h : ∃ w events, exec step (start ⟨true, false, false⟩ .default 1 0 8) ended = some w ∧
      w.router.streams.get? 1 = some ⟨events, false⟩ := ⟨_, _, rfl, rfl⟩
  obtain ⟨w, events, h, hstream⟩ := h
  refine ⟨w, events, h, hstream, streams_agree ?_ h ?_ hstream ?_⟩
  · decide
  · cases h
    decide
  · cases h
    rfl

/-- The connection is lost, and a subscription that is asked for meanwhile is given up before it has
a binding. -/
def forgotten : List Move :=
  connects ++ .turn ⟨.streamEnded, {}⟩ :: asking ++ leaving ++ [.route false]

/-- The session is replaced before the server ends the subscription. -/
def lapsed : List Move :=
  connects ++ asking ++ .turn ⟨.line "SUBOK,1,1,1", {}⟩ :: leaving ++
    .turn ⟨.line "END,48,expired", {}⟩ :: .turn ⟨.opened, {}⟩ ::
    .turn ⟨.line "CONOK,S2,50000,5000,*", {}⟩ :: List.replicate 5 (.route false)

theorem not_agrees {events : List SubscriptionEvent}
    (hwants : wants w.drive.driver.registry key = false) (hevents : Unended events) :
    ¬w.Agrees key events := by
  rintro (⟨hwants', -⟩ | ⟨-, front, event, rfl, hevent, -⟩)
  · rw [hwants] at hwants'
    cases hwants'
  · have hlast := hevents event List.mem_concat_self
    rw [hevent] at hlast
    cases hlast

/-- The moves leave key 1 taken, its stream held and everything handled, and the two disagree. -/
def Misleads (moves : List Move) : Prop :=
  ∃ w events, exec step (start ⟨true, false, false⟩ .default 1 0 8) moves = some w ∧
    1 ∈ w.subscribed ∧ w.router.streams.get? 1 = some ⟨events, false⟩ ∧ w.CaughtUp ∧
    ¬w.Agrees 1 events

/-- **A stream that nobody feeds.** The caller gives up a subscription that has no binding, or the
session is replaced while the removal is under way: the key leaves the registry, everything that the
driver emitted was handled, and the stream stays open. -/
theorem streams_disagree : Misleads forgotten ∧ Misleads lapsed := by
  constructor
  · exact ⟨_, _, rfl, by decide, rfl, rfl, not_agrees rfl nofun⟩
  · exact ⟨_, _, rfl, by decide, rfl, rfl, not_agrees rfl (by decide)⟩

end Tasks

end Lightstreamer.Client
