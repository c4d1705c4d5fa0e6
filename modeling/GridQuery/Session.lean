import GridQuery.Query

/-!
Sessions: tables, values for placeholders, and whether results begin with their titles, kept from
one query to the next. Nothing that fails changes a session.
-/

namespace GridQuery
set_option autoImplicit false

structure Session where
  tables : Tables
  binds : Binds
  titled : Bool

namespace Session

def empty : Session :=
  ⟨Tables.empty, Binds.empty, true⟩

def addTable (s : Session) (t : Table) : Session :=
  { s with tables := s.tables.insert t }

def addRows (s : Session) (name : String) (rows : List Row) : Except QueryError Session :=
  (Table.ofRows name rows).map s.addTable

def addBind (s : Session) (c : Cell) : Session :=
  { s with binds := s.binds.add c }

def clearBinds (s : Session) : Session :=
  { s with binds := Binds.empty }

def showTitles (s : Session) (titled : Bool) : Session :=
  { s with titled }

def world (s : Session) (clock : Calendar.Moment) : World :=
  ⟨s.tables, s.binds, clock⟩

def query (s : Session) (clock : Calendar.Moment) (text : String) : Except QueryError ResultSet :=
  GridQuery.query (s.world clock) text

def queryRows (s : Session) (clock : Calendar.Moment) (text : String) :
    Except QueryError (List Row) :=
  GridQuery.queryRows (s.world clock) s.titled text

end Session

end GridQuery
