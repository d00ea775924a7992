import Byteflow.HopAuth
import Byteflow.ValueTree

namespace Byteflow

open CapTable List Exec

namespace Value

-- A live token occurs in the value: as a Cap or as the reply_cap of a nested hop.
inductive Embeds (id : CapId) : Value → Prop where
  | cap (live : id ≠ .NONE) : Embeds id (.cap id)
  | reply (hop : Message) (live : hop.replyCap ≠ .NONE) (same : hop.replyCap = id) : Embeds id (.message hop)
  | inside (value child : Value) (member : child ∈ value.children) (embeds : Embeds id child) : Embeds id value

def isAtom : Value → Bool
  | .unit | .bool _ | .int _ | .float _ | .pid _ | .str _ | .bytes _ => true
  | _ => false

theorem atom_children {value : Value} (plain : value.isAtom = true) : value.children = [] := by
  cases value with
  | message | list | map | record => cases plain
  | _ => rfl

-- Two values that agree except at their tokens and at their envelopes.
inductive Mapped (carries : CapId → CapId → Prop) (stamps : Message → Message → Prop) : Value → Value → Prop where
  | atom (value : Value) (plain : value.isAtom = true) : Mapped carries stamps value value
  | unset : Mapped carries stamps (.cap .NONE) (.cap .NONE)
  | cap (id new : CapId) (live : id ≠ .NONE) (carried : carries id new) : Mapped carries stamps (.cap id) (.cap new)
  | message (hop new : Message) (stamped : stamps hop new) (payload : Mapped carries stamps hop.payload new.payload) :
      Mapped carries stamps (.message hop) (.message new)
  | list (items new : List Value) (each : List.Forall₂ (Mapped carries stamps) items new) :
      Mapped carries stamps (.list items) (.list new)
  | map (entries new : List (MapKey × Value)) (keys : new.map Prod.fst = entries.map Prod.fst)
      (each : List.Forall₂ (Mapped carries stamps) (entries.map Prod.snd) (new.map Prod.snd)) :
      Mapped carries stamps (.map entries) (.map new)
  | record (fields new : List Value) (each : List.Forall₂ (Mapped carries stamps) fields new) :
      Mapped carries stamps (.record fields) (.record new)

theorem forall₂_weaken {α β : Type} {R S : α → β → Prop} {items : List α} {others : List β}
    (each : List.Forall₂ R items others) (weaker : ∀ item ∈ items, ∀ other, R item other → S item other) :
    List.Forall₂ S items others := by
  induction each with
  | nil => exact .nil
  | cons head _ ih =>
    exact .cons (weaker _ mem_cons_self _ head) (ih fun item member => weaker item (mem_cons_of_mem _ member))

theorem mapped_weaken {carries carries' : CapId → CapId → Prop} {stamps stamps' : Message → Message → Prop}
    (caps : ∀ id new, carries id new → carries' id new) (hops : ∀ hop new, stamps hop new → stamps' hop new)
    (value : Value) : ∀ new, Mapped carries stamps value new → Mapped carries' stamps' value new := by
  induction value using Value.children_induction with
  | step value ih =>
    intro new mapped
    cases mapped with
    | atom _ plain => exact .atom _ plain
    | unset => exact .unset
    | cap id new live carried => exact .cap id new live (caps id new carried)
    | message hop new stamped payload => exact .message hop new (hops hop new stamped) (ih _ mem_cons_self _ payload)
    | list items new each => exact .list items new (forall₂_weaken each ih)
    | map entries new keys each => exact .map entries new keys (forall₂_weaken each ih)
    | record fields new each => exact .record fields new (forall₂_weaken each ih)

-- A relation between tokens that held at every position held at each token that occurs.
theorem mapped_embeds {carries : CapId → CapId → Prop} {stamps : Message → Message → Prop}
    (reply : ∀ hop new, stamps hop new → hop.replyCap ≠ .NONE → ∃ other, carries hop.replyCap other) {id : CapId}
    {value : Value} (embeds : value.Embeds id) : ∀ new, Mapped carries stamps value new → ∃ other, carries id other := by
  induction embeds with
  | cap live =>
    intro new mapped
    cases mapped with
    | atom _ plain => cases plain
    | unset => exact absurd rfl live
    | cap _ new _ carried => exact ⟨new, carried⟩
  | reply hop live same =>
    intro new mapped
    cases mapped with
    | atom _ plain => cases plain
    | message _ new stamped _ =>
      subst same
      exact reply hop new stamped live
  | inside value child member _ ih =>
    have each : ∀ {items others : List Value}, List.Forall₂ (Mapped carries stamps) items others → child ∈ items →
        ∃ other, carries id other := by
      intro items others each inside
      induction each with
      | nil => cases inside
      | cons head _ inRest =>
        rcases mem_cons.mp inside with rfl | later
        · exact ih _ head
        · exact inRest later
    intro new mapped
    cases mapped with
    | atom _ plain =>
      rw [atom_children plain] at member
      cases member
    | unset | cap => cases member
    | message hop new _ payload =>
      rw [mem_singleton.mp member] at ih
      exact ih new.payload payload
    | list items new mappedItems | map entries new _ mappedItems | record fields new mappedItems => exact each mappedItems member

-- The containers have been through try_list, try_map or try_record.
def Sized : Value → Prop
  | .list items => items.length ≤ MAX_LIST_LEN
  | .record fields => fields.length ≤ MAX_RECORD_LEN
  | .map entries => entries.length ≤ MAX_MAP_LEN
  | _ => True

end Value

theorem is_none_iff (id : CapId) : id.isNone = true ↔ id = .NONE := by
  rw [CapId.isNone, beq_iff_eq, CapId.NONE, CapId.mk.injEq]

section Walk

variable {σ ε : Type} {Later : σ → σ → Prop} [IsPreorder σ Later] {base : σ}

structure Rewrites (Later : σ → σ → Prop) (base : σ) (allowed : CapId → Prop) (carries : σ → CapId → CapId → Prop)
    (stamps : σ → Message → Message → Prop) (onCap : CapId → Exec σ ε CapId) (onMessage : Message → Exec σ ε Message) :
    Prop where
  carriesLast : ∀ s t id new, Later s t → carries s id new → carries t id new
  stampsLast : ∀ s t hop new, Later s t → stamps s hop new → stamps t hop new
  ignoresPayload : ∀ s hop payload new, stamps s (Message.withPayload hop payload) new → stamps s hop new
  cap : ∀ id, id ≠ .NONE → allowed id → Yields Later base (fun t new => carries t id new) (onCap id)
  message : ∀ hop : Message, (hop.replyCap ≠ .NONE → allowed hop.replyCap) →
    Yields Later base (fun t new => stamps t hop new ∧ new.payload = hop.payload) (onMessage hop)

variable {allowed : CapId → Prop} {carries : σ → CapId → CapId → Prop} {stamps : σ → Message → Message → Prop}
  {onCap : CapId → Exec σ ε CapId} {onMessage : Message → Exec σ ε Message} {made : Value} {tooNested : ε}

theorem rewrites_later {mid : σ} (rewrites : Rewrites Later base allowed carries stamps onCap onMessage)
    (later : Later base mid) : Rewrites Later mid allowed carries stamps onCap onMessage :=
  { rewrites with
    cap := fun id live named => yields_later (rewrites.cap id live named) later
    message := fun hop named => yields_later (rewrites.message hop named) later }

def Rewritten (carries : σ → CapId → CapId → Prop) (stamps : σ → Message → Message → Prop) (s : σ) (value new : Value) : Prop :=
  Value.Mapped (carries s) (stamps s) value new ∧ new.Everywhere Value.Sized

omit [IsPreorder σ Later] in
theorem rewritten_last {s t : σ} {value new : Value} (rewrites : Rewrites Later base allowed carries stamps onCap onMessage)
    (later : Later s t) (made : Rewritten carries stamps s value new) : Rewritten carries stamps t value new :=
  ⟨Value.mapped_weaken (fun id new => rewrites.carriesLast s t id new later)
    (fun hop new => rewrites.stampsLast s t hop new later) value new made.1, made.2⟩

omit [IsPreorder σ Later] in
theorem rewritten_items {s t : σ} {items new : List Value} (rewrites : Rewrites Later base allowed carries stamps onCap onMessage)
    (later : Later s t) (each : List.Forall₂ (Rewritten carries stamps s) items new) :
    List.Forall₂ (Value.Mapped (carries t) (stamps t)) items new ∧ ∀ made ∈ new, made.Everywhere Value.Sized := by
  induction each with
  | nil => exact ⟨.nil, forall_mem_nil _⟩
  | cons head _ ih =>
    obtain ⟨mapped, sized⟩ := rewritten_last rewrites later head
    exact ⟨.cons mapped ih.1, forall_mem_cons.mpr ⟨sized, ih.2⟩⟩

omit [IsPreorder σ Later] in
theorem yields_or_too_nested {α : Type} (tooNested : ε) {R : σ → α → Prop} (made : Option α)
    (holds : ∀ a, made = some a → Yields Later base R (pure a : Exec σ ε α)) :
    Yields Later base R (orTooNested tooNested made) := by
  cases made with
  | none => exact yields_throw tooNested
  | some a => exact holds a rfl

theorem items_map_caps_yields {depth : Nat} (items : List Value)
    (rewrites : Rewrites Later base allowed carries stamps onCap onMessage)
    (each : ∀ item ∈ items, Yields Later base (fun t new => Rewritten carries stamps t item new)
      (item.mapCaps tooNested onCap onMessage depth)) :
    Yields Later base (fun t new => List.Forall₂ (Rewritten carries stamps t) items new)
      (itemsMapCaps tooNested onCap onMessage depth items) := by
  induction items generalizing base with
  | nil =>
    rw [itemsMapCaps]
    exact yields_pure [] fun _ _ => .nil
  | cons item rest ih =>
    rw [itemsMapCaps]
    refine yields_bind (each item mem_cons_self) fun new mid later mapped => ?_
    refine yields_bind (ih (rewrites_later rewrites later) fun other member => ?_) fun others last passed mappedRest => ?_
    · exact yields_later (each other (mem_cons_of_mem _ member)) later
    · refine yields_pure _ fun final after => .cons ?_ (Value.forall₂_weaken mappedRest fun item _ other mappedItem => ?_)
      · exact rewritten_last rewrites (trans_of Later passed after) mapped
      · exact rewritten_last rewrites after mappedItem

theorem entries_map_caps_yields {depth : Nat} (entries : List (MapKey × Value))
    (rewrites : Rewrites Later base allowed carries stamps onCap onMessage)
    (each : ∀ item ∈ entries.map Prod.snd, Yields Later base (fun t new => Rewritten carries stamps t item new)
      (item.mapCaps tooNested onCap onMessage depth)) :
    Yields Later base (fun t new => new.map Prod.fst = entries.map Prod.fst ∧
        List.Forall₂ (Rewritten carries stamps t) (entries.map Prod.snd) (new.map Prod.snd))
      (entriesMapCaps tooNested onCap onMessage depth entries) := by
  induction entries generalizing base with
  | nil =>
    rw [entriesMapCaps]
    exact yields_pure [] fun _ _ => ⟨rfl, .nil⟩
  | cons entry rest ih =>
    obtain ⟨key, value⟩ := entry
    have here : Yields Later base (fun t new => new.1 = key ∧ Rewritten carries stamps t value new.2)
        (entryMapCaps tooNested onCap onMessage depth (key, value)) := by
      rw [entryMapCaps]
      refine yields_bind (each value mem_cons_self) fun new mid later mapped => ?_
      exact yields_pure _ fun t after => ⟨rfl, rewritten_last rewrites after mapped⟩
    rw [entriesMapCaps]
    refine yields_bind here fun new mid later mapped => ?_
    refine yields_bind (ih (rewrites_later rewrites later) fun other member => ?_) fun others last passed mappedRest => ?_
    · exact yields_later (each other (mem_cons_of_mem _ member)) later
    · refine yields_pure _ fun final after => ⟨?_, .cons ?_ ?_⟩
      · rw [map_cons, map_cons, mapped.1, mappedRest.1]
      · exact rewritten_last rewrites (trans_of Later passed after) mapped.2
      · exact Value.forall₂_weaken mappedRest.2 fun item _ other mappedItem => rewritten_last rewrites after mappedItem

theorem built_some {refused : Prop} [Decidable refused] {nests : Bool} {value : Value}
    (done : (if refused then none else if nests then some value else none) = some made) : ¬ refused ∧ made = value := by
  split at done
  · cases done
  rename_i refuse
  cases nests with
  | false => cases done
  | true => exact ⟨refuse, (Option.some.inj done).symm⟩

theorem try_list_ok {items : List Value} (done : Value.tryList items = some made) :
    items.length ≤ MAX_LIST_LEN ∧ made = .list items := by
  obtain ⟨short, same⟩ := built_some done
  exact ⟨Nat.not_lt.mp short, same⟩

theorem try_record_ok {fields : List Value} (done : Value.tryRecord fields = some made) :
    fields.length ≤ MAX_RECORD_LEN ∧ made = .record fields := by
  obtain ⟨short, same⟩ := built_some done
  exact ⟨Nat.not_lt.mp short, same⟩

theorem try_map_ok {entries : List (MapKey × Value)} (done : Value.tryMap entries = some made) :
    entries.length ≤ MAX_MAP_LEN ∧ made = .map entries := by
  obtain ⟨accepted, same⟩ := built_some done
  exact ⟨Nat.not_lt.mp fun long => accepted (Or.inl long), same⟩

theorem map_caps_yields (value : Value) (rewrites : Rewrites Later base allowed carries stamps onCap onMessage)
    (named : ∀ id, value.Embeds id → allowed id) (depth : Nat) :
    Yields Later base (fun t new => Rewritten carries stamps t value new)
      (value.mapCaps tooNested onCap onMessage depth) := by
  induction value using Value.children_induction generalizing depth with
  | step value ih =>
    have inside : ∀ child ∈ value.children, Yields Later base
        (fun t new => Rewritten carries stamps t child new) (child.mapCaps tooNested onCap onMessage (depth + 1)) :=
      fun child member => ih child member (fun id embeds => named id (.inside value child member embeds)) (depth + 1)
    have leaf : ∀ made : Value, made.children = [] → made.Sized → made.Everywhere Value.Sized :=
      fun made none_ here => ⟨made, here, by rw [none_]; exact forall_mem_nil _⟩
    rw [Value.mapCaps.eq_def]
    refine yields_ite _ (fun _ => yields_throw tooNested) (fun _ => ?_)
    cases value with
    | cap id =>
      refine yields_ite _ (fun unset => ?_) (fun live => ?_)
      · rw [(is_none_iff id).mp unset]
        exact yields_pure _ fun _ _ => ⟨.unset, leaf _ rfl trivial⟩
      · have live : id ≠ .NONE := fun same => live ((is_none_iff id).mpr same)
        refine yields_bind (rewrites.cap id live (named id (.cap live))) fun new mid later carried => ?_
        exact yields_pure _ fun t after =>
          ⟨.cap id new live (rewrites.carriesLast mid t id new after carried), leaf _ rfl trivial⟩
    | message hop =>
      have payloadWalk : Yields Later base (fun t new => Rewritten carries stamps t hop.payload new)
          (payloadMapCaps tooNested onCap onMessage (depth + 1) hop) := by
        have walk := inside hop.payload mem_cons_self
        obtain ⟨sender, replyCap, requestId, tag, payload⟩ := hop
        rw [payloadMapCaps]
        exact walk
      refine yields_bind payloadWalk fun payload mid later made => ?_
      have stamping := (rewrites_later rewrites later).message (Message.withPayload hop payload)
        fun live => named _ (.reply hop live rfl)
      refine yields_bind stamping fun new last passed stamped => yields_pure _ fun t after => ?_
      obtain ⟨mapped, sized⟩ := rewritten_last rewrites (trans_of Later passed after) made
      have same : new.payload = payload := stamped.2
      rw [← same] at mapped sized
      refine ⟨.message hop new ?_ mapped, _, trivial, forall_mem_singleton.mpr sized⟩
      exact rewrites.ignoresPayload t hop payload new (rewrites.stampsLast last t _ new after stamped.1)
    | list items =>
      refine yields_bind (items_map_caps_yields items rewrites inside) fun new mid later each => ?_
      refine yields_or_too_nested tooNested _ fun made done => yields_pure _ fun t after => ?_
      obtain ⟨short, rfl⟩ := try_list_ok done
      obtain ⟨mapped, sized⟩ := rewritten_items rewrites after each
      exact ⟨.list items new mapped, _, short, sized⟩
    | map entries =>
      refine yields_bind (entries_map_caps_yields entries rewrites inside) fun new mid later each => ?_
      refine yields_or_too_nested tooNested _ fun made done => yields_pure _ fun t after => ?_
      obtain ⟨short, rfl⟩ := try_map_ok done
      obtain ⟨mapped, sized⟩ := rewritten_items rewrites after each.2
      exact ⟨.map entries new each.1 mapped, _, short, sized⟩
    | record fields =>
      refine yields_bind (items_map_caps_yields fields rewrites inside) fun new mid later each => ?_
      refine yields_or_too_nested tooNested _ fun made done => yields_pure _ fun t after => ?_
      obtain ⟨short, rfl⟩ := try_record_ok done
      obtain ⟨mapped, sized⟩ := rewritten_items rewrites after each
      exact ⟨.record fields new mapped, _, short, sized⟩
    | _ => exact yields_pure _ fun _ _ => ⟨.atom _ rfl, leaf _ rfl trivial⟩

end Walk

def Carried (sender recipient : FlowId) (before after : CapTable) (id new : CapId) : Prop :=
  ∃ src dst, before.lookup id = some src ∧ src.holder = sender ∧ after.lookup new = some dst ∧ dst.holder = recipient ∧
    dst.cap.target = src.cap.target ∧ dst.cap.Within src.cap

def IsPairReply (sender recipient : FlowId) (table : CapTable) (id : CapId) : Prop :=
  table.replyIndex.lookup (recipient, sender) = some id ∧ ∃ entry, table.entries.lookup id = some entry ∧
    entry.holder = recipient ∧ entry.cap.target = .flow sender ∧ entry.cap.rights.contains .SEND = true

structure Stamped (sender recipient : FlowId) (before after : CapTable) (hop new : Message) : Prop where
  from_ : new.sender = if hop.sender = 0 then sender else hop.sender
  requestId : new.requestId ≠ 0 ∧ (hop.requestId ≠ 0 → new.requestId = hop.requestId)
  tag : new.tag = hop.tag
  replyUnset : hop.replyCap = .NONE → IsPairReply sender recipient after new.replyCap
  replySet : hop.replyCap ≠ .NONE → Carried sender recipient before after hop.replyCap new.replyCap

namespace Sending

-- How the state of a hop may have changed since: rows are only added, for the
-- recipient and under ids that were drawn, and the pair keeps its reply token.
structure Later (sender recipient : FlowId) (earlier later : Sending) : Prop where
  random : later.random = earlier.random
  kept : ∀ id entry, earlier.caps.entries.lookup id = some entry → later.caps.entries.lookup id = some entry
  added : ∀ id entry, later.caps.entries.lookup id = some entry → earlier.caps.entries.lookup id = some entry ∨
    entry.holder = recipient ∧ ∃ call, .ok id ∈ earlier.random call
  reply : ∀ id, earlier.caps.replyCap recipient sender .SEND = some id →
    later.caps.replyCap recipient sender .SEND = some id

variable {sender recipient : FlowId}

instance : IsPreorder Sending (Later sender recipient) where
  refl s := ⟨rfl, fun _ _ found => found, fun _ _ found => Or.inl found, fun _ same => same⟩
  trans r s t first second := by
    refine ⟨second.random.trans first.random, fun id entry found => second.kept id entry (first.kept id entry found),
      fun id entry found => ?_, fun id same => second.reply id (first.reply id same)⟩
    rcases second.added id entry found with there | ⟨holder, drawn⟩
    · exact first.added id entry there
    · exact Or.inr ⟨holder, first.random ▸ drawn⟩

end Sending

namespace CapTable

variable {table after : CapTable} {entry : Capability} {draws : CapDraws} {new : CapId}

theorem inserted_lookup (inserted : Inserted table entry draws new after) (id : CapId) :
    after.entries.lookup id = if id = new then some entry else table.entries.lookup id := by
  rw [inserted.grown]
  exact Assoc.lookup_cons id new entry table.entries

theorem inserted_reply_cap (inserted : Inserted table entry draws new after) {holder target : FlowId} {rights : CapRights}
    {id : CapId} (reused : table.replyCap holder target rights = some id) :
    after.replyCap holder target rights = some id := by
  rw [reply_cap_iff] at reused ⊢
  obtain ⟨indexed, old, found, held, sameTarget, contains, live⟩ := reused
  have rest := inserted.grown
  refine ⟨by rw [rest]; exact indexed, old, ?_, held, sameTarget, contains, by rw [rest]; exact live⟩
  rw [inserted_lookup inserted, if_neg, found]
  rintro rfl
  rw [inserted.free] at found
  cases found

-- What mint_or_reuse does: it fails, hands out the indexed token, or adds one row and indexes it.
inductive Replied (table : CapTable) (holder target : FlowId) (rights : CapRights) (draws : CapDraws) :
    CapTable × Except MintError CapId → Prop where
  | failed (after : CapTable) (e : MintError) : Replied table holder target rights draws (after, .error e)
  | reused (id : CapId) (there : table.replyCap holder target rights = some id) :
      Replied table holder target rights draws (table, .ok id)
  | minted (id : CapId) (entry : Capability) (after : CapTable) (absent : table.replyCap holder target rights = none)
      (rows : after.entries = (id, entry) :: table.entries) (free : table.entries.lookup id = none)
      (held : entry.holder = holder) (drawn : .ok id ∈ draws) (indexed : after.replyCap holder target rights = some id) :
      Replied table holder target rights draws (after, .ok id)

theorem mint_or_reuse_replied (table : CapTable) (holder target : FlowId) (rights : CapRights) (draws : CapDraws) :
    Replied table holder target rights draws (table.mintOrReuse holder target rights draws) := by
  cases there : table.replyCap holder target rights with
  | some id =>
    rw [mintOrReuse, there]
    exact .reused id there
  | none =>
    have replies := @mint_or_reuse_replies table holder target rights draws
    rcases mint_or_reuse_spec table holder target rights draws with ⟨id, reply, _⟩ | ⟨e, failed⟩ | ⟨id, after, inserted, done⟩
    · rw [there] at reply
      cases reply
    · rw [failed]
      exact .failed _ e
    · rw [done] at replies ⊢
      have rows : (table.cleared holder target).entries = table.entries := CapRace.bind_flow_entries
      refine .minted id (table.replyEntry holder target rights) _ there ?_ (rows ▸ inserted.free) rfl inserted.drawn (replies rfl)
      exact (congrArg CapTable.entries inserted.grown).trans (congrArg ((id, table.replyEntry holder target rights) :: ·) rows)

end CapTable

namespace HopAuth

open Sending (Later)

variable {sender recipient : FlowId} {base state : Sending} {before : CapTable}

theorem on_table_exec (call : CapTable → CapDraws → CapTable × Except CapError CapId) :
    exec (onTable call) state = ((call state.caps (state.random state.calls)).2,
      { state with caps := (call state.caps (state.random state.calls)).1, calls := state.calls + 1 }) := rfl

theorem added_later {after : CapTable} {id : CapId} {entry : Capability} (rows : after.entries = (id, entry) :: state.caps.entries)
    (free : state.caps.entries.lookup id = none) (held : entry.holder = recipient)
    (drawn : .ok id ∈ state.random state.calls)
    (reply : ∀ old, state.caps.replyCap recipient sender .SEND = some old → after.replyCap recipient sender .SEND = some old) :
    Later sender recipient state { state with caps := after, calls := state.calls + 1 } := by
  refine ⟨rfl, fun old row found => ?_, fun old row found => ?_, reply⟩
  · dsimp only
    rw [rows, Assoc.lookup_cons, if_neg, found]
    rintro rfl
    rw [free] at found
    cases found
  · dsimp only at found
    rw [rows, Assoc.lookup_cons] at found
    by_cases same : old = id
    · rw [if_pos same] at found
      cases found
      exact Or.inr ⟨held, state.calls, same ▸ drawn⟩
    · rw [if_neg same] at found
      exact Or.inl found

theorem delegate_yields (id : CapId) (unguessed : sender = recipient → ∀ call, .ok id ∉ base.random call) :
    Yields (Later sender recipient) base (fun t new => Carried sender recipient base.caps t.caps id new)
      (delegate id sender recipient) := by
  intro state later
  rw [delegate, on_table_exec]
  have derives : CapTable.Derives state.caps id recipient (state.random state.calls) (fun src => src.holder = sender)
      (state.caps.delegate id sender recipient (state.random state.calls)) := delegate_derives _ _ _ _
  revert derives
  generalize state.caps.delegate id sender recipient (state.random state.calls) = result
  intro derives
  cases derives with
  | refused e => trivial
  | derived src wantRights wantNative new after found held inserted =>
    have rows : after.entries = (new, ⟨recipient, src.cap.attenuate wantRights wantNative, src.born⟩) ::
        state.caps.entries := by rw [inserted.grown]
    refine ⟨added_later rows inserted.free rfl inserted.drawn fun old => inserted_reply_cap inserted, ?_⟩
    obtain ⟨live, listed, _⟩ := lookup_mem found
    -- The row was there when the hop began: one added since is the recipient's and under a drawn id.
    have presented : base.caps.entries.lookup id = some src := by
      rcases later.added id src listed with there | ⟨toRecipient, call, drawn⟩
      · exact there
      · exact absurd drawn (unguessed (held.symm.trans toRecipient) call)
    refine ⟨src, ⟨recipient, src.cap.attenuate wantRights wantNative, src.born⟩, ?_, held, ?_, rfl, rfl,
      Cap.attenuate_within src.cap wantRights wantNative⟩
    · rw [CapTable.lookup, if_neg live, presented]
    · rw [CapTable.lookup, if_neg inserted.some_, inserted_lookup inserted, if_pos rfl]

theorem mint_or_reuse_yields :
    Yields (Later sender recipient) base (fun t id => t.caps.replyCap recipient sender .SEND = some id)
      (mintOrReuse recipient sender .SEND) := by
  intro state later
  rw [mintOrReuse, on_table_exec]
  have replied := mint_or_reuse_replied state.caps recipient sender .SEND (state.random state.calls)
  revert replied
  generalize state.caps.mintOrReuse recipient sender .SEND (state.random state.calls) = result
  intro replied
  cases replied with
  | failed after e => trivial
  | reused id there =>
    exact ⟨⟨rfl, fun _ _ found => found, fun _ _ found => Or.inl found, fun _ same => same⟩, there⟩
  | minted id entry after absent rows free held drawn indexed =>
    refine ⟨added_later rows free held drawn fun old there => ?_, indexed⟩
    rw [absent] at there
    cases there

theorem request_id_or_yields (requestId : UInt64) :
    Yields (Later sender recipient) base (fun _ id => id ≠ 0 ∧ (requestId ≠ 0 → id = requestId)) (requestIdOr requestId) := by
  rw [requestIdOr]
  refine yields_ite _ (fun unset => ?_) (fun set => yields_pure _ fun _ _ => ⟨set, fun _ => rfl⟩)
  intro state later
  have fresh := fresh_request_id_ne_zero state.nextRequestId
  exact ⟨⟨rfl, fun _ _ found => found, fun _ _ found => Or.inl found, fun _ same => same⟩, fresh,
    fun set => absurd unset set⟩

theorem carried_later {earlier later : Sending} {id new : CapId}
    (grown : Later sender recipient earlier later) (carried : Carried sender recipient before earlier.caps id new) :
    Carried sender recipient before later.caps id new := by
  obtain ⟨src, dst, presented, held, granted, rest⟩ := carried
  obtain ⟨live, listed, _⟩ := lookup_mem granted
  refine ⟨src, dst, presented, held, ?_, rest⟩
  rw [CapTable.lookup, if_neg live]
  exact grown.kept new dst listed

-- The relation of Stamped while the hop is still under way: the pair's token is
-- the one mint_or_reuse would hand out again.
def Stamping (sender recipient : FlowId) (before : CapTable) (state : Sending) (hop new : Message) : Prop :=
  new.sender = (if hop.sender = 0 then sender else hop.sender) ∧
    (new.requestId ≠ 0 ∧ (hop.requestId ≠ 0 → new.requestId = hop.requestId)) ∧ new.tag = hop.tag ∧
    (hop.replyCap = .NONE → state.caps.replyCap recipient sender .SEND = some new.replyCap) ∧
    (hop.replyCap ≠ .NONE → Carried sender recipient before state.caps hop.replyCap new.replyCap)

theorem reply_cap_or_yields (replyCap : CapId)
    (unguessed : replyCap ≠ .NONE → sender = recipient → ∀ call, .ok replyCap ∉ base.random call) :
    Yields (Later sender recipient) base (fun t id =>
      (replyCap = .NONE → t.caps.replyCap recipient sender .SEND = some id) ∧
      (replyCap ≠ .NONE → Carried sender recipient base.caps t.caps replyCap id))
      (replyCapOr sender recipient replyCap) := by
  rw [replyCapOr]
  refine yields_ite _ (fun unset state after => ?_) (fun set state after => ?_)
  · refine ends_mono (mint_or_reuse_yields state after) (fun id t done => ?_) (fun _ _ failed => failed)
    exact ⟨done.1, fun _ => done.2, fun live => absurd ((is_none_iff _).mp unset) live⟩
  · have live : replyCap ≠ .NONE := fun same => set ((is_none_iff _).mpr same)
    refine ends_mono (delegate_yields _ (unguessed live) state after) (fun id t done => ?_) (fun _ _ failed => failed)
    exact ⟨done.1, fun none_ => absurd none_ live, fun _ => done.2⟩

theorem stamp_envelope_yields (hop : Message)
    (unguessed : hop.replyCap ≠ .NONE → sender = recipient → ∀ call, .ok hop.replyCap ∉ base.random call) :
    Yields (Later sender recipient) base
      (fun t new => Stamping sender recipient base.caps t hop new ∧ new.payload = hop.payload)
      (stampEnvelope sender recipient hop) := by
  rw [stampEnvelope]
  refine yields_bind (request_id_or_yields hop.requestId) fun requestId mid later numbered => ?_
  refine yields_bind (yields_later (reply_cap_or_yields hop.replyCap unguessed) later) fun id last passed given => ?_
  refine yields_pure _ fun t after => ⟨⟨rfl, numbered, rfl, fun unset => ?_, fun live => ?_⟩, rfl⟩
  · exact after.reply id (given.1 unset)
  · exact carried_later after (given.2 live)

theorem stamping_later {earlier later : Sending} {hop new : Message}
    (grown : Later sender recipient earlier later) (stamping : Stamping sender recipient before earlier hop new) :
    Stamping sender recipient before later hop new := by
  obtain ⟨from_, requestId, tag, unset, set⟩ := stamping
  exact ⟨from_, requestId, tag, fun none_ => grown.reply _ (unset none_), fun live => carried_later grown (set live)⟩

theorem stamped_of_stamping {state : Sending} {hop new : Message}
    (stamping : Stamping sender recipient before state hop new) : Stamped sender recipient before state.caps hop new := by
  obtain ⟨from_, requestId, tag, unset, set⟩ := stamping
  refine ⟨from_, requestId, tag, fun none_ => ?_, set⟩
  obtain ⟨indexed, entry, found, held, target, contains, _⟩ := (reply_cap_iff _ _ _ _).mp (unset none_)
  exact ⟨indexed, entry, found, held, target, contains⟩

def Unguessed (random : Nat → CapDraws) (payload : Value) : Prop :=
  ∀ call id, .ok id ∈ random call → ¬ payload.Embeds id

theorem reissue_rewrites {payload : Value} (unguessed : sender = recipient → Unguessed base.random payload) :
    Rewrites (Later sender recipient) base payload.Embeds (fun t => Carried sender recipient base.caps t.caps)
      (Stamping sender recipient base.caps) (fun id => delegate id sender recipient) (stampEnvelope sender recipient) where
  carriesLast _ _ _ _ grown carried := carried_later grown carried
  stampsLast _ _ _ _ grown stamping := stamping_later grown stamping
  ignoresPayload _ _ _ _ stamping := stamping
  cap id _ embeds := delegate_yields id fun same call drawn => unguessed same call id drawn embeds
  message hop embeds := stamp_envelope_yields hop fun live same call drawn => unguessed same call _ drawn (embeds live)

theorem reissue_caps_in_value_yields (payload : Value) (unguessed : sender = recipient → Unguessed base.random payload) :
    Yields (Later sender recipient) base
      (fun t new => Value.Mapped (Carried sender recipient base.caps t.caps) (Stamping sender recipient base.caps t) payload new)
      (reissueCapsInValue sender recipient payload) := by
  rw [reissueCapsInValue]
  refine yields_ite _ (fun _ => yields_throw _) (fun _ => ?_)
  intro s later
  refine ends_mono (map_caps_yields payload (reissue_rewrites unguessed) (fun _ embeds => embeds) 0 s later)
    (fun _ _ made => ⟨made.1, made.2.1⟩) fun _ _ failed => failed

structure Delivered (sender recipient : FlowId) (before after : CapTable) (message delivered : Message) : Prop where
  from_ : delivered.sender = sender
  requestId : delivered.requestId ≠ 0 ∧ (message.requestId ≠ 0 → delivered.requestId = message.requestId)
  tag : delivered.tag = message.tag
  replyCap : IsPairReply sender recipient after delivered.replyCap
  payload : Value.Mapped (Carried sender recipient before after) (Stamped sender recipient before after) message.payload
    delivered.payload

theorem authenticate_delivers (message : Message) (before : Sending)
    (unguessed : sender = recipient → Unguessed before.random message.payload) :
    Ends (fun delivered after => Delivered sender recipient before.caps after.caps message delivered) (fun _ _ => True)
      (exec (authenticateOutgoingMessage sender recipient message) before) := by
  have yields : Yields (Later sender recipient) before
      (fun t delivered => Delivered sender recipient before.caps t.caps message delivered)
      (authenticateOutgoingMessage sender recipient message) := by
    rw [authenticateOutgoingMessage]
    refine yields_bind (request_id_or_yields message.requestId) fun requestId mid later numbered => ?_
    refine yields_bind (yields_later (reissue_caps_in_value_yields message.payload unguessed) later)
      fun payload last passed mapped => ?_
    refine yields_bind mint_or_reuse_yields fun reply final ended replied => yields_pure _ fun t after => ?_
    obtain ⟨indexed, entry, found, held, target, contains, _⟩ :=
      (reply_cap_iff _ _ _ _).mp (after.reply reply replied)
    have grown := trans_of (Later sender recipient) ended after
    refine ⟨rfl, numbered, rfl, ⟨indexed, entry, found, held, target, contains⟩, ?_⟩
    refine Value.mapped_weaken (fun id new carried => carried_later grown carried) (fun hop new stamping => ?_) _ _ mapped
    exact stamped_of_stamping (stamping_later grown stamping)
  refine ends_mono (yields before (refl_of _ before)) (fun _ _ done => done.2) (fun _ _ failed => failed)

theorem hop_confinement (sender recipient : FlowId) (message : Message) (before : Sending)
    (unguessed : sender = recipient → Unguessed before.random message.payload) :
    (∀ delivered after, exec (authenticateOutgoingMessage sender recipient message) before = (.ok delivered, after) →
      Delivered sender recipient before.caps after.caps message delivered) ∧
    ∀ id, message.payload.Embeds id → (∀ entry, before.caps.lookup id = some entry → entry.holder ≠ sender) →
      ∃ e after, exec (authenticateOutgoingMessage sender recipient message) before = (.error e, after) := by
  have delivers := authenticate_delivers message before unguessed
  refine ⟨fun delivered after done => ?_, fun id embeds foreign => ?_⟩
  · rw [done] at delivers
    exact delivers
  · cases outcome : exec (authenticateOutgoingMessage sender recipient message) before with
    | mk result after =>
      cases result with
      | error e => exact ⟨e, after, rfl⟩
      | ok delivered =>
        rw [outcome] at delivers
        have presented := Value.mapped_embeds (fun hop new stamped live => ⟨_, stamped.replySet live⟩) embeds _
          delivers.payload
        obtain ⟨_, src, _, found, held, _⟩ := presented
        exact absurd held (foreign src found)

def kept : CapTable := { CapTable.new with entries := [(⟨7⟩, ⟨1, Cap.root (.flow 1) .ADDRESSING none 0, 0⟩)], flowCells := [(1, 0)] }

def looped : Sending := ⟨kept, 1, fun call => if call = 0 then [.ok ⟨9⟩] else [.ok ⟨10⟩], 0⟩

def wrapped : Message := ⟨0, .NONE, 0, 3, .list [.cap ⟨7⟩]⟩

theorem wrapped_unguessed : Unguessed looped.random wrapped.payload := by
  intro call id drawn embeds
  have only : id = ⟨7⟩ := by
    rcases embeds with _ | _ | ⟨_, child, member, inner⟩
    rw [mem_singleton.mp member] at inner
    cases inner with
    | cap live => rfl
    | inside _ _ nothing _ => cases nothing
  subst only
  by_cases first : call = 0
  · simp [looped, first] at drawn
  · simp [looped, first] at drawn

theorem looped_hop_confined : ∃ delivered after,
    exec (authenticateOutgoingMessage 1 1 wrapped) looped = (.ok delivered, after) ∧
      Delivered 1 1 looped.caps after.caps wrapped delivered :=
  ⟨_, _, rfl, (hop_confinement 1 1 wrapped looped fun _ => wrapped_unguessed).1 _ _ rfl⟩

-- The reply_cap of the message itself is overwritten unseen: nobody holds the one given here.
def forwarded : Message := ⟨0, ⟨7⟩, 5, 3, .unit⟩

def started : Sending := ⟨.new, 1, fun _ => [.ok ⟨9⟩], 0⟩

theorem given_reply_cap_unchecked : forwarded.replyCap ≠ .NONE ∧ started.caps.lookup forwarded.replyCap = none ∧
    ∃ delivered after, exec (authenticateOutgoingMessage 1 2 forwarded) started = (.ok delivered, after) ∧
      ¬ Carried 1 2 started.caps after.caps forwarded.replyCap delivered.replyCap := by
  refine ⟨by decide, rfl, _, _, rfl, ?_⟩
  rintro ⟨src, _, presented, _⟩
  cases presented

end HopAuth

end Byteflow
