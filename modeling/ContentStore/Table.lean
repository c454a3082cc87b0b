/-!
# Tables

The closed set of tables of a site.  Each table has a name and a file of its own, and is found by
its name in any letter case, also when the name stands between grave accents or double quotes.
-/

namespace ContentStore

/-- A table of the site. -/
inductive Table where
  | menus
  | pages
  | blogPosts
  | blogCategories
  | categories
  | services
  | testimonials
  | appointments
  | popups
  | media
  | settings
  | users
  | contactSubmissions
  | analyticsEvents
deriving DecidableEq, Repr

namespace Table

/-- The tables in their fixed order. -/
def all : List Table :=
  [menus, pages, blogPosts, blogCategories, categories, services, testimonials, appointments,
   popups, media, settings, users, contactSubmissions, analyticsEvents]

/-- The name of a table. -/
def name : Table → String
  | menus => "menus"
  | pages => "pages"
  | blogPosts => "blog_posts"
  | blogCategories => "blog_categories"
  | categories => "categories"
  | services => "services"
  | testimonials => "testimonials"
  | appointments => "appointments"
  | popups => "popups"
  | media => "media"
  | settings => "settings"
  | users => "users"
  | contactSubmissions => "contact_submissions"
  | analyticsEvents => "analytics_events"

/-- The name of a table's file in the data directory. -/
def fileName (t : Table) : String := t.name ++ ".json"

theorem fileName_injective {s t : Table} (h : s.fileName = t.fileName) : s = t := by
  cases s <;> cases t <;> first | rfl | exact absurd h (by decide)

/-- A character that may stand around the name of a table. -/
def isQuote (c : Char) : Bool := c == '`' || c == '"'

/-- A name without the quotes at its front and at its end. -/
def unquote (cs : List Char) : List Char :=
  ((cs.dropWhile isQuote).reverse.dropWhile isQuote).reverse

/-- The table of a name, in any case of the ASCII letters. -/
def lookup? (name : String) : Option Table :=
  let plain := (unquote name.toList).map Char.toLower
  all.find? fun t => t.name.toList = plain

example : lookup? "`Blog_Posts\"" = some blogPosts := by decide

end Table

end ContentStore
