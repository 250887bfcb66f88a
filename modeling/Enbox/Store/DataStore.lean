import Enbox.Store.MessageStore

/-! # The data store -/

namespace Enbox

structure DataRow where
  tenant : Did
  recordId : String
  dataCid : Cid
  data : Bytes
  deriving DecidableEq

abbrev DataStore := List DataRow

namespace DataStore

def keyed (row : DataRow) (tenant : Did) (recordId : String) (dataCid : Cid) : Bool :=
  row.tenant = tenant && row.recordId = recordId && row.dataCid = dataCid

def get (store : DataStore) (tenant : Did) (recordId : String) (dataCid : Cid) : Option Bytes :=
  (store.find? fun row => keyed row tenant recordId dataCid).map (·.data)

def delete (store : DataStore) (tenant : Did) (recordId : String) (dataCid : Cid) : DataStore :=
  store.filter fun row => ¬ keyed row tenant recordId dataCid

def put (store : DataStore) (tenant : Did) (recordId : String) (dataCid : Cid) (data : Bytes) :
    DataStore :=
  ⟨tenant, recordId, dataCid, data⟩ :: store.delete tenant recordId dataCid

end DataStore

structure Stores where
  messages : MessageStore := []
  data : DataStore := []
  deriving DecidableEq

namespace Stores

def deleteMessage (stores : Stores) (tenant : Did) (cid : Cid) : Stores :=
  { stores with messages := stores.messages.delete tenant cid }

def deleteData (stores : Stores) (tenant : Did) (recordId : String) (dataCid : Cid) : Stores :=
  { stores with data := stores.data.delete tenant recordId dataCid }

end Stores

end Enbox
