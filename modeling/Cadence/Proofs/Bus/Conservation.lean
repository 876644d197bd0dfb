import Cadence.Proofs.Bus.Standing

namespace Cadence.Bus

def Request.Apart (name path : String) : Request → Prop
  | .publish other _ => other ≠ path
  | .open other _ | .next other | .cancel other | .close other => other ≠ name
  | .last _ | .count _ => True

def Delivery.value? : Delivery → Option Value
  | .value v => some v
  | .finished | .cancelled => none

def View.queue (view : View) : List Value := (view.subscriptions.head?.map (·.queue)).getD []

section turns
variable {name path : String} {last : String → Option Value} {request : Request}
  {view after : View} {told : List Delivery}

theorem Turn.apart (turn : Turn name last request view after told) {stream : Stream}
    (seen : view.stream = some stream) (apart : request.Apart name stream.path) :
    after = view ∧ told = [] := by
  cases turn with
  | passed => exact ⟨rfl, rfl⟩
  | queued | handed =>
      obtain rfl := Option.some.inj seen
      exact absurd rfl apart
  | made | replayed | subscribed | read | waits | finished | cancelled | dropped | closed =>
      exact absurd rfl apart

theorem Turn.conserves (turn : Turn name last request view after told) {waiting : Bool}
    (seen : after.stream = some ⟨path, .open waiting⟩) :
    (request = .next name ∧ view.stream = some ⟨path, .unopened⟩ ∧
      told.filterMap Delivery.value? ++ after.queue = (last path).toList) ∨
    ((∃ waiting, view.stream = some ⟨path, .open waiting⟩) ∧ (∀ own, request ≠ .open name own) ∧
      told.filterMap Delivery.value? ++ after.queue =
        view.queue ++ published path request.values) := by
  cases turn with
  | passed passes =>
      refine .inr ⟨⟨waiting, seen⟩, ?_, ?_⟩
      · rintro own rfl
        exact passes rfl
      · have none : published path request.values = [] := by
          cases request with
          | publish other value =>
              have elsewhere : other ≠ path := by
                rintro rfl
                exact passes waiting seen
              simp [Request.values, published, elsewhere]
          | _ => rfl
        simp [none]
  | made | finished | cancelled | dropped | closed => cases seen
  | queued | handed =>
      obtain ⟨rfl, -⟩ := Stream.mk.inj (Option.some.inj seen)
      refine .inr ⟨⟨_, rfl⟩, by simp, ?_⟩
      simp [View.opened, View.queue, Request.values, published, Delivery.value?]
  | read | waits =>
      obtain ⟨rfl, -⟩ := Stream.mk.inj (Option.some.inj seen)
      refine .inr ⟨⟨_, rfl⟩, by simp, ?_⟩
      simp [View.opened, View.queue, Request.values, Delivery.value?]
  | replayed known | subscribed known =>
      obtain ⟨rfl, -⟩ := Stream.mk.inj (Option.some.inj seen)
      refine .inl ⟨rfl, rfl, ?_⟩
      simp [View.opened, View.queue, Delivery.value?, known]

theorem Turn.ended (turn : Turn name last request (.shut path .ended) after told)
    (kept : ∀ own, request ≠ .open name own) :
    after = .shut path .ended ∧ told.filterMap Delivery.value? = [] := by
  generalize ends : View.shut path .ended = view at turn
  cases turn with
  | passed => exact ⟨rfl, rfl⟩
  | finished => exact ⟨rfl, rfl⟩
  | made => exact absurd rfl (kept _)
  | queued | handed | read | waits | cancelled | closed | replayed | subscribed | dropped =>
      simp [View.shut, View.opened] at ends

theorem Turn.closes (turn : Turn name last (.close name) view after told)
    (seen : view.stream = some ⟨path, .open false⟩) : after = .shut path .ended := by
  cases turn with
  | passed passes => exact absurd seen (passes rfl path).2
  | dropped => cases seen
  | closed =>
      obtain ⟨rfl, -⟩ := Stream.mk.inj (Option.some.inj seen)
      rfl

theorem Turn.cancels (turn : Turn name last (.cancel name) view after told)
    (seen : view.stream = some ⟨path, .open true⟩) : after = .shut path .ended := by
  cases turn with
  | passed passes => exact absurd seen (passes rfl path)
  | cancelled =>
      obtain ⟨rfl, -⟩ := Stream.mk.inj (Option.some.inj seen)
      rfl

end turns

namespace Streams
variable {all : Streams} {name path : String}

theorem queued_view (name : String) (all : Streams) :
    all.bus.queued name = (all.view name).queue := by
  simp only [queued, View.queue, view, of, List.head?_filter]

/-- What the streams of a bus can rely on after any requests. -/
structure Faithful (requests : List Request) : Prop where
  /-- An open stream has opened at one of its reads. What has been delivered to it since and what is
  queued for it are the last value from before and all values from after. -/
  conserved : ∀ name path waiting,
    (run requests).state.streams.lookup name = some ⟨path, .open waiting⟩ →
    ∃ before after, requests = before ++ .next name :: after ∧
      (run before).state.streams.lookup name = some ⟨path, .unopened⟩ ∧
      (∀ own, .open name own ∉ after) ∧
      (told name (Outcome.each step (.next name :: after) (run before).state).reports).filterMap
          Delivery.value? ++ (run requests).state.bus.queued name =
        (published path (publications before)).getLast?.toList ++
          published path (publications after)
  undisturbed : ∀ name stream request,
    (run requests).state.streams.lookup name = some stream → request.Apart name stream.path →
    ((run requests).state.step request).state.view name = (run requests).state.view name ∧
      told name ((run requests).state.step request).reports = []
  closes : ∀ name path, (run requests).state.streams.lookup name = some ⟨path, .open false⟩ →
    ((run requests).state.step (.close name)).state.view name = .shut path .ended
  cancels : ∀ name path, (run requests).state.streams.lookup name = some ⟨path, .open true⟩ →
    ((run requests).state.step (.cancel name)).state.view name = .shut path .ended
  silent : ∀ name path after, (run requests).state.streams.lookup name = some ⟨path, .ended⟩ →
    (∀ own, .open name own ∉ after) →
    (Outcome.each step after (run requests).state).state.view name = .shut path .ended ∧
      (told name (Outcome.each step after (run requests).state).reports).filterMap
        Delivery.value? = []
  counted : ∀ path, (run requests).state.bus.count path =
    (run requests).state.streams.countP fun entry =>
      entry.2.path = path && entry.2.stage.isOpen

theorem run_conserves (requests : List Request) (name path : String) (waiting : Bool)
    (opened : (run requests).state.streams.lookup name = some ⟨path, .open waiting⟩) :
    ∃ before after, requests = before ++ .next name :: after ∧
      (run before).state.streams.lookup name = some ⟨path, .unopened⟩ ∧
      (∀ own, .open name own ∉ after) ∧
      (told name (Outcome.each step (.next name :: after) (run before).state).reports).filterMap
          Delivery.value? ++ (run requests).state.bus.queued name =
        (published path (publications before)).getLast?.toList ++
          published path (publications after) := by
  -- By the last request: a stream that is open behind it was open before, or has opened just then.
  induction requests using List.reverseRecOn generalizing waiting with
  | nil => cases opened
  | append_singleton requests request ih =>
      have sound := run_sound requests
      have turn := step_turn sound.distinct (sound.fits name) request
      rw [run_concat, Outcome.andThen_state] at opened ⊢
      rw [queued_view]
      obtain ⟨rfl, unopened, given⟩ | ⟨⟨waited, earlier⟩, kept, given⟩ := turn.conserves opened
      · refine ⟨requests, [], rfl, unopened, by simp, ?_⟩
        rw [run_last] at given
        simpa [publications] using given
      · obtain ⟨before, after, rfl, unopened, own, conserved⟩ := ih waited earlier
        refine ⟨before, after ++ [request], by simp, unopened, ?_, ?_⟩
        · intro other among
          obtain among | last := List.mem_append.mp among
          · exact own other among
          · exact kept other (List.mem_singleton.mp last).symm
        · have split : Outcome.each step (.next name :: (after ++ [request])) (run before).state =
              (Outcome.each step (.next name :: after) (run before).state).andThen
                (step request) := by
            rw [← List.cons_append, Outcome.each_concat]
          have reached : (run (before ++ .next name :: after)).state =
              (Outcome.each step (.next name :: after) (run before).state).state := by
            rw [run, Outcome.each_append]
            rfl
          rw [split, Outcome.andThen_reports, told_append, List.filterMap_append, ← reached,
            List.append_assoc, given, publications_append, publications_singleton,
            published_append, ← List.append_assoc, ← List.append_assoc, ← conserved, queued_view]

theorem steps_silent (sound : all.Sound) (ended : all.view name = .shut path .ended)
    (requests : List Request) (kept : ∀ own, .open name own ∉ requests) :
    (Outcome.each step requests all).state.view name = .shut path .ended ∧
      (told name (Outcome.each step requests all).reports).filterMap Delivery.value? = [] := by
  induction requests generalizing all with
  | nil => exact ⟨ended, rfl⟩
  | cons request rest ih =>
      have turn := step_turn sound.distinct (sound.fits name) request
      rw [ended] at turn
      obtain ⟨after, nothing⟩ := turn.ended fun own same =>
        kept own (List.mem_cons.mpr (.inl same.symm))
      obtain ⟨after', nothing'⟩ := ih (step_sound sound request) after fun own among =>
        kept own (List.mem_cons_of_mem _ among)
      refine ⟨after', ?_⟩
      rw [Outcome.each_cons, Outcome.andThen_reports, told_append, List.filterMap_append, nothing,
        nothing']
      rfl

theorem view_ended (sound : all.Sound) (ended : all.streams.lookup name = some ⟨path, .ended⟩) :
    all.view name = .shut path .ended := by
  have stream : (all.view name).stream = some ⟨path, .ended⟩ := ended
  obtain ⟨none, -⟩ | ⟨own, waiting, queue, seen⟩ := (sound.fits name).shape
  · exact congrArg₂ View.mk stream none
  · rw [seen] at stream
    cases stream

theorem streams_faithful (requests : List Request) : Faithful requests := by
  have sound := run_sound requests
  have turn (name : String) := step_turn sound.distinct (sound.fits name)
  exact
    { conserved := run_conserves requests
      undisturbed := fun name stream request seen apart => (turn name request).apart seen apart
      closes := fun name path seen => (turn name (.close name)).closes seen
      cancels := fun name path seen => (turn name (.cancel name)).cancels seen
      silent := fun name path after ended => steps_silent sound (view_ended sound ended) after
      counted := count_open sound }

theorem deck_conserved :
    let requests : List Request :=
      [.publish "deck" (.whole 1), .open "lamp" "deck", .next "lamp", .open "fan" "deck",
        .next "fan", .publish "deck" (.whole 0), .close "fan", .publish "deck" .null]
    (run requests).state.streams.lookup "lamp" = some ⟨"deck", .open false⟩ ∧
      (run requests).state.streams.lookup "fan" = some ⟨"deck", .ended⟩ ∧
      ((run requests).state.step (.close "lamp")).state.view "lamp" = .shut "deck" .ended ∧
      (Outcome.each step [.publish "deck" .null] (run requests).state).state.view "fan" =
        .shut "deck" .ended := by
  intro requests
  have lamp : (run requests).state.streams.lookup "lamp" = some ⟨"deck", .open false⟩ := by decide
  have fan : (run requests).state.streams.lookup "fan" = some ⟨"deck", .ended⟩ := by decide
  have faithful := streams_faithful requests
  exact ⟨lamp, fan, faithful.closes _ _ lamp, (faithful.silent _ _ _ fan (by simp)).1⟩

end Streams
end Cadence.Bus
