import Sieshka.Specs.Staff

/-!
# The MAX webhook

A request gets as far as its secret, its sender and its payload allow, and a
press that passes all three is dispatched by the role of its sender.
-/

namespace Sieshka

open Transactions Contract
open Relation (ReflTransGen)

theorem compareDigest_ok {a b : String} (h : compareDigest a b = .ok true) : a = b := by
  unfold compareDigest at h
  split_ifs at h
  simpa using h

/-- The values a `BIGINT` column can be compared with. -/
def IsBigint (n : Int) : Prop := -2 ^ 63 ≤ n ∧ n < 2 ^ 63

instance (n : Int) : Decidable (IsBigint n) :=
  inferInstanceAs (Decidable (-2 ^ 63 ≤ n ∧ n < 2 ^ 63))

section Specs

variable {K : ShopContract} {c : Call} {x y z : CallAt}

/-- What a request comes to, with the result `r`, between `x` and `y`. -/
inductive MaxHandled (cfg : Settings) (K : ShopContract) (c : Call) (secret : Option String)
    (body : Option Json) (r : Except PyError Nat) (x y : CallAt) : Prop
  | forbidden (hr : r = .ok 403) (hy : y = x)
      (h : cfg.maxWebhookSecret = "" ∨
        compareDigest (secret.getD "") cfg.maxWebhookSecret = .ok false)
  | undigested (e : PyError) (hr : r = .error e) (hy : y = x) (hset : cfg.maxWebhookSecret ≠ "")
      (h : compareDigest (secret.getD "") cfg.maxWebhookSecret = .error e)
  | notJson (hr : r = .ok 200) (hy : y = x) (hset : cfg.maxWebhookSecret ≠ "")
      (hs : compareDigest (secret.getD "") cfg.maxWebhookSecret = .ok true) (hb : body = none)
  | noCallback (update : Json) (hr : r = (callbackOf update).map fun _ => 200) (hy : y = x)
      (hset : cfg.maxWebhookSecret ≠ "")
      (hs : compareDigest (secret.getD "") cfg.maxWebhookSecret = .ok true)
      (hb : body = some update) (h : ∀ a, callbackOf update ≠ .ok (some a))
  | unreadable (update : Json) (callback : List (String × Json)) (sender : Int)
      (hr : r = .error .dbapiError) (hset : cfg.maxWebhookSecret ≠ "")
      (hs : compareDigest (secret.getD "") cfg.maxWebhookSecret = .ok true)
      (hb : body = some update) (hcb : callbackOf update = .ok (some (callback, sender)))
      (h : K.Through c x (fun z => K.faulty c z ∨ ¬ IsBigint sender) y)
  | unknown (update : Json) (callback : List (String × Json)) (sender : Int) (hr : r = .ok 200)
      (hset : cfg.maxWebhookSecret ≠ "")
      (hs : compareDigest (secret.getD "") cfg.maxWebhookSecret = .ok true)
      (hb : body = some update) (hcb : callbackOf update = .ok (some (callback, sender)))
      (hbig : IsBigint sender)
      (h : K.Through c x (fun z => staffByMaxId z.db sender = none) y)
  | noPress (update : Json) (callback : List (String × Json)) (sender : Int)
      (member : StaffMember) (hr : r = (pressOf cfg callback).map fun _ => 200)
      (hset : cfg.maxWebhookSecret ≠ "")
      (hs : compareDigest (secret.getD "") cfg.maxWebhookSecret = .ok true)
      (hb : body = some update) (hcb : callbackOf update = .ok (some (callback, sender)))
      (hbig : IsBigint sender)
      (h : K.Through c x (fun z => staffByMaxId z.db sender = some member) y)
      (hno : ∀ a, pressOf cfg callback ≠ .ok (some a))
  | kitchen (role : StaffRole) (press : Press) (w : CallAt)
      (res : Except PyError (Option KitchenResult)) (hr : r = res.map fun _ => 200)
      (hp : Pressed cfg secret body x.db role press) (hkind : press.kind = .kitchen)
      (hw : K.Follows c x w)
      (h : KitchenDispatched K c role press.entityId press.event res w y)
  | order (role : StaffRole) (press : Press) (w : CallAt)
      (res : Except PyError (Option OrderResult)) (hr : r = res.map fun _ => 200)
      (hp : Pressed cfg secret body x.db role press) (hkind : press.kind = .order)
      (hw : K.Follows c x w)
      (h : OrderDispatched K c role press.entityId press.event res w y)

theorem wp_findByMaxUserId {maxUserId : Int} {Q : Except PyError (Option StaffMember) → CallAt → Prop}
    (hx : x.txn = {})
    (hok : ∀ y, y.txn = {} → IsBigint maxUserId →
      ∀ found, K.Through c x (fun z => staffByMaxId z.db maxUserId = found) y → Q (.ok found) y)
    (he : ∀ y, y.txn = {} → K.Through c x (fun z => K.faulty c z ∨ ¬ IsBigint maxUserId) y →
      Q (.error .dbapiError) y) :
    K.wp c (findByMaxUserId maxUserId) Q x := by
  have hview : ∀ d : Database, x.txn.view d = d := fun d => by rw [hx]; rfl
  refine wp_withSession ?_
  by_cases hbig : -2 ^ 63 ≤ maxUserId ∧ maxUserId < 2 ^ 63
  · rw [if_pos hbig]
    refine wp_select (by rw [hx]) (fun s hs ha s' hs' _ => ?_) fun y hy s hs _ =>
      he _ rfl ((hy.closed hs).mono fun _ => Or.inl)
    rw [hview]
    have hsaw : K.Through c x (fun z => staffByMaxId z.db maxUserId = staffByMaxId s.1 maxUserId)
        (x.now s) := Through.now hs ha rfl
    exact hok _ rfl hbig _ (hsaw.follows ((Follows.now hs').trans .closed))
  · rw [if_neg hbig]
    exact fun s hs ha => he _ rfl ((Through.now hs ha (Or.inr hbig)).follows .closed)

/-- Who has pressed does not change. -/
theorem Pressed.later {cfg : Settings} {secret : Option String} {body : Option Json}
    {role : StaffRole} {press : Press} {s s' : State} (h : Pressed cfg secret body s.1 role press)
    (he : Evolves s s') : Pressed cfg secret body s'.1 role press := by
  obtain ⟨hset, hsecret, update, callback, sender, member, hb, hcb, hm, hrest⟩ := h
  refine ⟨hset, hsecret, update, callback, sender, member, hb, hcb, ?_, hrest⟩
  rw [← hm, staffByMaxId, he.staff]
  rfl

/-- The press of a known member is dispatched to the service it is for. -/
theorem wp_dispatchPress {cfg : Settings} (hK : IsShop cfg K) {secret : Option String}
    {body : Option Json} (hc : K.calls (.maxWebhook secret body)) {role : StaffRole} {press : Press}
    {Q : Except PyError Unit → CallAt → Prop} (hp : Pressed cfg secret body x.db role press)
    (hpast : x.past = []) (hxw : K.Follows (.maxWebhook secret body) x z) (hz : z.txn = {})
    (h : ∀ y r, y.txn = {} → MaxHandled cfg K (.maxWebhook secret body) secret body
      (r.map fun _ => 200) x y → Q r y) :
    K.wp (.maxWebhook secret body) (dispatchPress role press) Q z := by
  have hlater : ∀ s, Evolves (z.db, z.mem) s → Pressed cfg secret body s.1 role press :=
    fun s he => Pressed.later (s := (x.db, x.mem)) hp ((hK.evolves hxw.since).trans he)
  have hzpast : z.past = [] := hxw.past.trans hpast
  rw [dispatchPress]
  cases hkind : press.kind with
  | kitchen =>
      dsimp only
      rw [wp_bind]
      refine wp_dispatchKitchen hK hc hzpast
        (fun s id ev hs hid hev hrole => ⟨hzpast, role, press,
          hlater s (hK.evolves hs), hkind, hid, hev, hrole⟩)
        (fun past s row kev ev hs hev hrole hadv => ⟨role, press,
          hlater s hs, by rw [hkind]; exact ⟨kev, hev, hrole, hadv⟩⟩)
        hz fun y r hy hd => ?_
      have hdone : MaxHandled cfg K (.maxWebhook secret body) secret body
          (r.map fun _ => 200) x y := .kitchen role press z r rfl hp hkind hxw hd
      cases r with
      | error e => exact h _ _ hy hdone
      | ok result => exact h _ (.ok ()) hy hdone
  | order =>
      dsimp only
      rw [wp_bind]
      refine wp_dispatchOrder hK hc
        (fun s row ev hs hid hev hrole => ⟨role, press,
          hlater s (hK.evolves hs), by rw [hkind]; exact ⟨hzpast, hid, hev, hrole⟩⟩)
        hz fun y r hy hd => ?_
      have hdone : MaxHandled cfg K (.maxWebhook secret body) secret body
          (r.map fun _ => 200) x y := .order role press z r rfl hp hkind hxw hd
      cases r with
      | error e => exact h _ _ hy hdone
      | ok result => exact h _ (.ok ()) hy hdone

theorem wp_handleCallback {cfg : Settings} (hK : IsShop cfg K) {secret : Option String}
    {body : Option Json} (hc : K.calls (.maxWebhook secret body)) {update : Json}
    {callback : List (String × Json)} {sender : Int} (hset : cfg.maxWebhookSecret ≠ "")
    (hs : compareDigest (secret.getD "") cfg.maxWebhookSecret = .ok true)
    (hb : body = some update) (hcb : callbackOf update = .ok (some (callback, sender)))
    {Q : Except PyError Nat → CallAt → Prop} (hx : x.txn = {}) (hpast : x.past = [])
    (h : ∀ y r, y.txn = {} →
      MaxHandled cfg K (.maxWebhook secret body) secret body r x y → Q r y) :
    K.wp (.maxWebhook secret body) (handleCallback cfg callback sender) Q x := by
  rw [handleCallback, wp_bind]
  refine wp_findByMaxUserId hx (fun w hw hbig found hfound => ?_) fun y hy hl =>
    h _ _ hy (.unreadable update callback sender rfl hset hs hb hcb hl)
  cases found with
  | none => exact h _ _ hw (.unknown update callback sender rfl hset hs hb hcb hbig hfound)
  | some member =>
      dsimp only
      rw [wp_bind]
      cases hpress : pressOf cfg callback with
      | error e =>
          refine h _ _ hw (.noPress update callback sender member ?_ hset hs hb hcb hbig hfound ?_)
          · rw [hpress]
            rfl
          · simp [hpress]
      | ok found =>
          cases found with
          | none =>
              refine h _ _ hw (.noPress update callback sender member ?_ hset hs hb hcb hbig hfound ?_)
              · rw [hpress]
                rfl
              · simp [hpress]
          | some press =>
              have hsecret : secret = some cfg.maxWebhookSecret := by
                have he := compareDigest_ok hs
                cases secret with
                | none => exact absurd he.symm hset
                | some s => exact congrArg some he
              have hpressed : Pressed cfg secret body x.db member.role press := by
                obtain ⟨hf, v, hv, -, hm, -⟩ := hfound
                refine ⟨hset, hsecret, update, callback, sender, member, hb, hcb, ?_, rfl, hpress⟩
                have hstaff : v.db.staff = x.db.staff := (hK.evolves hv.since).staff
                rw [← hm, staffByMaxId, staffByMaxId, hstaff]
              rw [ofExcept_ok, wp_ret]
              dsimp only
              rw [wp_bind]
              refine wp_dispatchPress hK hc hpressed hpast hfound.toFollows hw fun y r hy hdone => ?_
              cases r with
              | error e => exact h _ _ hy hdone
              | ok _ => exact h _ _ hy hdone

theorem wp_maxWebhook {cfg : Settings} (hK : IsShop cfg K) {secret : Option String}
    {body : Option Json} (hc : K.calls (.maxWebhook secret body))
    {Q : Except PyError Nat → CallAt → Prop} (hx : x.txn = {}) (hpast : x.past = [])
    (h : ∀ y r, y.txn = {} →
      MaxHandled cfg K (.maxWebhook secret body) secret body r x y → Q r y) :
    K.wp (.maxWebhook secret body) (maxWebhook cfg secret body) Q x := by
  unfold maxWebhook
  by_cases hset : cfg.maxWebhookSecret = ""
  · rw [if_pos hset]
    exact h _ _ hx (.forbidden rfl rfl (Or.inl hset))
  rw [if_neg hset, wp_bind]
  cases hs : compareDigest (secret.getD "") cfg.maxWebhookSecret with
  | error e => exact h _ _ hx (.undigested e rfl rfl hset hs)
  | ok valid =>
      cases valid with
      | false => exact h _ _ hx (.forbidden rfl rfl (Or.inr hs))
      | true =>
          rw [ofExcept_ok, wp_ret]
          dsimp only
          rw [if_pos rfl]
          cases body with
          | none => exact h _ _ hx (.notJson rfl rfl hset hs rfl)
          | some update =>
              dsimp only
              rw [wp_bind]
              cases hcb : callbackOf update with
              | error e =>
                  refine h _ _ hx (.noCallback update ?_ rfl hset hs rfl (by simp [hcb]))
                  rw [hcb]
                  rfl
              | ok found =>
                  cases found with
                  | none =>
                      refine h _ _ hx (.noCallback update ?_ rfl hset hs rfl (by simp [hcb]))
                      rw [hcb]
                      rfl
                  | some a =>
                      exact wp_handleCallback hK hc hset hs rfl hcb hx hpast h

end Specs

end Sieshka
