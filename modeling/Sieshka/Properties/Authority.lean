import Sieshka.Properties.KitchenTickets

/-!
# The MAX webhook acts within the authority of its sender

What a request to the webhook has committed is nothing, or what the button that
an active member of the staff has pressed is for, and the role table allows.
-/

namespace Sieshka

open Transactions Contract

/-- The commits of a MAX request: none, those of a press on a ticket, or one edge
of an order. -/
inductive MaxActed (cfg : Settings) (secret : Option String) (body : Option Json) : Past → Prop
  | nothing : MaxActed cfg secret body []
  | ticket {p rest role press event} (hp : Pressed cfg secret body p.1 role press)
      (hkind : press.kind = .kitchen) (hev : KitchenEvent.ofValue press.event = some event)
      (hrole : kitchenRoleEvents role event = true)
      (h : TicketActed press.entityId event (p :: rest)) : MaxActed cfg secret body (p :: rest)
  | order {p role press event row} (hp : Pressed cfg secret body p.1 role press)
      (hkind : press.kind = .order) (hev : OrderEvent.ofValue press.event = some event)
      (hrole : orderRoleEvents role event = true) (hid : readUuid press.entityId = some row.id)
      (h : OrderMove p row event) : MaxActed cfg secret body [p]

section Commits

variable {cfg : Settings} {A : Call → CallAt → Prop} {R : Call → State → State → Prop}
variable {secret : Option String} {body : Option Json} {past : Past} {s : State}
variable {ws : List Write} {d' : Database}

/-- One more commit of a MAX request. -/
theorem Commits.maxActed (h : Commits cfg A R (.maxWebhook secret body) past s ws d')
    (ih : MaxActed cfg secret body past) : MaxActed cfg secret body (past ++ [(s.1, d')]) := by
  have hcommit := h
  cases h with
  | duplicate row hk _ => exact hk.elim
  | recorded row hk _ => exact hk.elim
  | answered _ he id rest _ _ _ => cases he
  | customer _ he row _ => cases he
  | placed _ he id customerId items totalRub promoCode discountRub _ _ _ => cases he
  | cooked row row' orderId items lines d₁ ticket _ hmay _ _ _ _ _ _ _ _ _ =>
      obtain ⟨role, press, -, hmay⟩ := hmay
      cases hkind : press.kind with
      | kitchen =>
          rw [hkind] at hmay
          obtain ⟨-, -, -, -, p, -, ⟨he, -⟩ | ⟨he, -⟩⟩ := hmay <;> cases he
      | order =>
          rw [hkind] at hmay
          obtain ⟨-, -, -, hrole⟩ := hmay
          cases role <;> cases hrole
  | paymentCreated row order orders' _ _ _ hmay _ _ => exact hmay.elim
  | settled kind orderId row order orders' _ _ hmay _ _ _ _ => exact hmay.elim
  | stock hs _ _ => cases hs
  | ticketMoved row event st hfind hmay htr =>
      obtain ⟨rfl, role, press, hp, hkind, hid, hev, hrole⟩ := hmay
      exact .ticket hp hkind hev hrole (.moved hid ⟨hfind, st, htr, rfl⟩)
  | moved row row' event st hfind hmay htr _ hrow =>
      obtain ⟨role, press, hp, hmay⟩ := hmay
      cases hkind : press.kind with
      | order =>
          rw [hkind] at hmay
          obtain ⟨rfl, hid, hev, hrole⟩ := hmay
          exact .order hp hkind hev hrole hid ⟨hfind, st, row'.traceId, htr, by rw [← hrow]⟩
      | kitchen =>
          rw [hkind] at hmay
          obtain ⟨kev, hev, -, hadv⟩ := hmay
          have hpress : (Call.maxWebhook secret body).ticketPress cfg =
              some (press.entityId, kev) := by rw [hp.ticketPress, hkind, hev]; rfl
          -- the hand-off that goes on here was a press of the same button
          cases ih with
          | nothing =>
              obtain ⟨-, p, -, ⟨-, hnil⟩ | ⟨-, -, q, hnil, -⟩⟩ := hadv <;> cases hnil
          | ticket hp' hkind' hev' hrole' h' =>
              refine .ticket hp' hkind' hev' hrole' (hcommit.ticketActed ?_ h')
              rw [hp'.ticketPress, hkind', hev']
              rfl
          | order hp' hkind' _ _ _ _ =>
              rw [hp'.ticketPress, hkind'] at hpress
              cases hpress

end Commits

/-- The role sets of the order events. -/
theorem orderRoleEvents_iff {role : StaffRole} {event : OrderEvent} :
    orderRoleEvents role event = true ↔
      event = .CANCEL ∧ (role = .admin ∨ role = .staff) ∨
        (event = .ASSIGN_COURIER ∨ event = .PICKUP ∨ event = .DELIVER) ∧
          (role = .courier ∨ role = .staff) := by
  cases role <;> cases event <;> simp [orderRoleEvents]

theorem kitchenRoleEvents_iff {role : StaffRole} {event : KitchenEvent} :
    kitchenRoleEvents role event = true ↔ role = .kitchen ∨ role = .staff := by
  cases role <;> simp [kitchenRoleEvents]

theorem staffByMaxId_some {d : Database} {sender : Int} {member : StaffMember}
    (h : staffByMaxId d sender = some member) :
    member ∈ d.staff.rows ∧ member.maxUserId = some sender ∧ member.active = true := by
  have hp := List.find?_some h
  simp only [Bool.and_eq_true, decide_eq_true_eq] at hp
  exact ⟨List.mem_of_find?_eq_some h, hp⟩

section Runs

variable {cfg : Settings} {d : Database} {m : Memory} {c : ShopConfig}

/-- The staff was the same at every commit of the run. -/
theorem Reaches.staff (h : Reaches cfg (Config.start d m) c) :
    ∀ p ∈ c.commits, p.2.1.staff = c.db.staff := by
  induction h with
  | refl => simp [Config.start, Config.commits]
  | step hr _ hs ih =>
      cases Reaches.changed hr hs with
      | kept hd hc =>
          rw [hd, hc]
          exact ih
      | committed t txn _ _ hcommit _ hc =>
          have hstaff := hcommit.evolves.staff
          intro p hp
          rcases List.mem_cons.mp (hc.subset hp) with rfl | hp
          · exact hstaff.symm
          · rw [ih p hp]
            exact hstaff.symm

theorem Reaches.maxActed (h : Reaches cfg (Config.start d m) c) {t : ShopThread}
    (ht : t ∈ c.threads) {secret : Option String} {body : Option Json}
    (hcall : t.call = .maxWebhook secret body) : MaxActed cfg secret body t.commits := by
  have hrec := h.ok.recorded t ht
  rw [hcall] at hrec
  exact recorded_induction (fun _ _ _ h => h) hrec .nothing fun _ _ _ _ _ hcommit ih =>
    hcommit.maxActed ih

/-- Under any interleaving of any calls, from any database, for every request
to the MAX webhook with any header and any body: it has committed nothing, or a
non-empty secret is configured and the request carries it, the integer in
`callback.user.user_id` is the `max_user_id` of an active member of the staff,
and its commits are those of one button. A button on a ticket, which takes a
member of the kitchen or the staff, moves it along one edge and, for a hand-off,
may pack and close its order; a button on an order moves it along one edge whose
event the member's role has. The database changes by commits only. -/
theorem max_webhook_within_authority (h : Reaches cfg (Config.start d m) c) :
    (∀ t ∈ c.threads, ∀ secret body, t.call = .maxWebhook secret body → t.commits = [] ∨
      ∃ update callback sender press, ∃ member ∈ c.db.staff.rows,
        cfg.maxWebhookSecret ≠ "" ∧ secret = some cfg.maxWebhookSecret ∧ body = some update ∧
        callbackOf update = .ok (some (callback, sender)) ∧
        member.maxUserId = some sender ∧ member.active = true ∧
        pressOf cfg callback = .ok (some press) ∧
        (press.kind = .kitchen ∧ (∃ event, KitchenEvent.ofValue press.event = some event ∧
            (member.role = .kitchen ∨ member.role = .staff) ∧
            TicketActed press.entityId event t.commits) ∨
          press.kind = .order ∧ ∃ event p row, OrderEvent.ofValue press.event = some event ∧
            (event = .CANCEL ∧ (member.role = .admin ∨ member.role = .staff) ∨
              (event = .ASSIGN_COURIER ∨ event = .PICKUP ∨ event = .DELIVER) ∧
                (member.role = .courier ∨ member.role = .staff)) ∧
            readUuid press.entityId = some row.id ∧ t.commits = [p] ∧ OrderMove p row event)) ∧
    ∀ a c', (shop cfg).step c a = some c' → c'.db = c.db ∨
      ∃ i n t t', a = .run i n ∧ c.threads[i]? = some t ∧ c'.threads[i]? = some t' ∧
        t'.call = t.call ∧ t'.commits = t.commits ++ [(c.db, c'.db)] := by
  refine ⟨fun t ht secret body hcall => ?_, fun _ _ hs => System.db_of_step hs⟩
  have hstaff : ∀ p ∈ t.commits, p.1.staff = c.db.staff := fun p hp =>
    h.staff (t.call, p) (List.mem_flatMap.mpr ⟨t, ht, List.mem_map_of_mem hp⟩)
  have hacted := h.maxActed ht hcall
  generalize t.commits = past at hstaff hacted
  cases hacted with
  | nothing => exact Or.inl rfl
  | ticket hp hkind hev hrole hacted =>
      obtain ⟨hset, hsecret, update, callback, sender, member, hbody, hcb, hm, hr, hpress⟩ := hp
      obtain ⟨hmem, hsender, hactive⟩ := staffByMaxId_some hm
      rw [hstaff _ List.mem_cons_self] at hmem
      subst hr
      exact Or.inr ⟨update, callback, sender, _, member, hmem, hset, hsecret, hbody, hcb, hsender,
        hactive, hpress, Or.inl ⟨hkind, _, hev, kitchenRoleEvents_iff.mp hrole, hacted⟩⟩
  | order hp hkind hev hrole hid hmove =>
      obtain ⟨hset, hsecret, update, callback, sender, member, hbody, hcb, hm, hr, hpress⟩ := hp
      obtain ⟨hmem, hsender, hactive⟩ := staffByMaxId_some hm
      rw [hstaff _ List.mem_cons_self] at hmem
      subst hr
      exact Or.inr ⟨update, callback, sender, _, member, hmem, hset, hsecret, hbody, hcb, hsender,
        hactive, hpress, Or.inr ⟨hkind, _, _, _, hev, orderRoleEvents_iff.mp hrole, hid, rfl, hmove⟩⟩

end Runs

/-- An administrator has cancelled an order by a button. -/
theorem max_webhook_within_authority_cancel :
    ∃ c, Reaches sampleSettings (Config.start (withStaff
        (databaseWith [sampleOrder 1 .CONFIRMED "cash" []] []) [sampleMember 3 .admin 42]) {}) c ∧
      orderStates c = [(1, .CANCELLED)] ∧
      ∀ t ∈ c.threads, t.call = .maxWebhook (some "secret") (some (sampleUpdate 42 cancelButton)) →
        t.commits = [] ∨ ∃ member ∈ c.db.staff.rows, member.maxUserId = some 42 := by
  obtain ⟨c, hr, hc⟩ := System.Runs.exists_of_exec (shop sampleSettings) (fun _ _ => True)
    (Config.start (withStaff
      (databaseWith [sampleOrder 1 .CONFIRMED "cash" []] []) [sampleMember 3 .admin 42]) {})
    (.call (.maxWebhook (some "secret") (some (sampleUpdate 42 cancelButton))) :: runs 0 9)
    (f := orderStates) (b := [(1, .CANCELLED)]) (fun _ _ _ => trivial) (by decide +kernel)
  refine ⟨c, hr, hc, fun t ht hcall => ?_⟩
  rcases (max_webhook_within_authority hr).1 t ht _ _ hcall with hnil | hacted
  · exact Or.inl hnil
  · obtain ⟨update, callback, sender, press, member, hmem, -, -, hbody, hcb, hsender, -⟩ := hacted
    obtain rfl := Option.some.inj hbody
    obtain rfl : (42 : Int) = sender := by
      have h42 : callbackOf (sampleUpdate 42 cancelButton) =
          .ok (some ([("user", .obj [("user_id", .int 42)]), ("payload", .str cancelButton)], 42)) :=
        rfl
      rw [h42] at hcb
      cases hcb
      rfl
    exact Or.inr ⟨member, hmem, hsender⟩

end Sieshka
